/-
  LayeredConfig/Proofs/Tree/UnderPath.lean
  ========================================
  **A layer under a path touches only that place.**

  A layer that goes under a path is wrapped in a table for each key of the path,
  and then the whole is merged with the data.  The wrapping holds tables on the
  path, the layer at its end, and nothing beside it; so nothing changes beside
  the path (`at?_beside`).

  On top, the layer makes its way through whatever stands on the path.
  Underneath, it comes to nothing as soon as a value that is no table stands
  there (`deepMerge_nestUnder_of_leafOn`).
-/
import LayeredConfig.Proofs.Outcome
import LayeredConfig.Proofs.Value.Overlay
import LayeredConfig.Tree.Source

namespace LayeredConfig

namespace Table

/-! ### Tables around a layer -/

section Nested

variable (layer : Table)

theorem get?_nestUnder_cons (key : String) (rest : List String) (other : String) :
    (nestUnder (key :: rest) layer).get? other =
      if key = other then some (.table (nestUnder rest layer)) else none := rfl

theorem Ordered.nestUnder {layer : Table} (h : layer.Ordered) (path : List String) :
    (Table.nestUnder path layer).Ordered := by
  induction path with
  | nil => exact h
  | cons key rest ih =>
    apply ordered_of_get? (t := Table.nestUnder (key :: rest) layer) (List.pairwise_singleton _ _)
    intro other v hv
    rw [get?_nestUnder_cons] at hv
    split at hv
    · obtain rfl := Option.some.inj hv
      exact ih
    · cases hv

/-- The layer stands at the end of the path. -/
theorem at?_nestUnder (path : List String) :
    (nestUnder path layer).at? path = some (.table layer) := by
  induction path with
  | nil => rfl
  | cons key rest ih =>
    rw [at?_cons, get?_nestUnder_cons, if_pos rfl]
    exact ih

/-- Beside the path there is nothing. -/
theorem at?_nestUnder_beside {path other : List String} (h : ¬ other <+: path)
    (h' : ¬ path <+: other) : (nestUnder path layer).at? other = none := by
  induction path generalizing other with
  | nil => exact absurd List.nil_prefix h'
  | cons key rest ih =>
    cases other with
    | nil => exact absurd List.nil_prefix h
    | cons key' rest' =>
      rw [at?_cons, get?_nestUnder_cons]
      by_cases hkey : key = key'
      · subst hkey
        rw [if_pos rfl]
        apply ih
        · exact fun hfront => h (List.cons_prefix_cons.2 ⟨rfl, hfront⟩)
        · exact fun hfront => h' (List.cons_prefix_cons.2 ⟨rfl, hfront⟩)
      · rw [if_neg hkey]
        rfl

theorem not_leafAbove_nestUnder {path other : List String} (h' : ¬ path <+: other) :
    ¬ (nestUnder path layer).LeafAbove other := by
  rintro ⟨way, w, hway, -, hw, hleaf⟩
  by_cases hpath : way <+: path
  · exact Value.not_isLeaf_of_prefix (at?_nestUnder layer path) hpath hw hleaf
  · have hnone := at?_nestUnder_beside layer hpath fun hfront => h' (hfront.trans hway)
    rw [Table.at?] at hnone
    rw [hnone] at hw
    cases hw

end Nested

/-! ### On top and underneath -/

/-- The table at the end of a path, empty if there is none. -/
def tableAt (t : Table) (path : List String) : Table :=
  match t.at? path with
  | some (.table u) => u
  | _ => []

def LeafOn (t : Table) (path : List String) : Prop :=
  ∃ way w, way <+: path ∧ t.at? way = some w ∧ w.IsLeaf

theorem tableAt_of_some {t u : Table} {path : List String} (h : t.at? path = some (.table u)) :
    t.tableAt path = u := by
  rw [tableAt, h]

theorem tableAt_of_no_table {t : Table} {path : List String}
    (h : ∀ u, t.at? path ≠ some (.table u)) : t.tableAt path = [] := by
  unfold tableAt
  split
  next u hu => exact absurd hu (h u)
  next => rfl

theorem LeafAbove.leafOn {t : Table} {path : List String} (h : t.LeafAbove path) :
    t.LeafOn path := by
  obtain ⟨way, w, hway, -, hw, hleaf⟩ := h
  exact ⟨way, w, hway, hw, hleaf⟩

theorem not_leafOn_of_table {t u : Table} {path : List String}
    (h : t.at? path = some (.table u)) : ¬ t.LeafOn path := by
  rintro ⟨way, w, hway, hw, hleaf⟩
  exact Value.not_isLeaf_of_prefix h hway hw hleaf

/-- A leaf on a longer path stands under its first key, or further on in the table there. -/
theorem LeafOn.of_cons {t : Table} {key : String} {rest : List String}
    (h : t.LeafOn (key :: rest)) :
    ∃ v, t.get? key = some v ∧ (v.IsLeaf ∨ ∃ u, v = .table u ∧ Table.LeafOn u rest) := by
  obtain ⟨way, w, hway, hw, hleaf⟩ := h
  cases way with
  | nil => exact absurd (Option.some.inj hw).symm (hleaf t)
  | cons k way =>
    obtain ⟨rfl, hrest⟩ := List.cons_prefix_cons.1 hway
    rw [at?_cons] at hw
    obtain ⟨v, hv, hw⟩ := Option.bind_eq_some_iff.1 hw
    refine ⟨v, hv, ?_⟩
    rcases v.isLeaf_or_table with hv | ⟨u, rfl⟩
    · exact .inl hv
    · exact .inr ⟨u, rfl, way, w, hrest, hw, hleaf⟩

section Placing

variable {data layer : Table} {path : List String}

/-- On top, the layer lies over the table that was at the end of its path. -/
theorem at?_deepMerge_nestUnder (hlayer : layer.Ordered) :
    (deepMerge data (nestUnder path layer)).at? path =
      some (.table (deepMerge (data.tableAt path) layer)) := by
  rw [at?_deepMerge_of_some (hlayer.nestUnder path) data (at?_nestUnder layer path)]
  rcases Value.no_table_or (data.at? path) with hnone | ⟨u, hu⟩
  · rw [Value.over_of_lower hnone, tableAt_of_no_table hnone, deepMerge_of_empty hlayer]
  · rw [hu, Value.over_table, tableAt_of_some hu]

/-- Underneath, the layer lies under the table that was at the end of its path. -/
theorem at?_nestUnder_deepMerge (hdata : data.Ordered) (hfree : ¬ data.LeafOn path) :
    (deepMerge (nestUnder path layer) data).at? path =
      some (.table (deepMerge layer (data.tableAt path))) := by
  cases hv : data.at? path with
  | none =>
    have hopen : ¬ data.LeafAbove path := fun hleaf => hfree hleaf.leafOn
    have hnone : ∀ u, data.at? path ≠ some (.table u) := by simp [hv]
    rw [at?_deepMerge_of_open hdata _ hv hopen, at?_nestUnder, tableAt_of_no_table hnone,
      deepMerge_nil]
  | some v =>
    rcases v.isLeaf_or_table with hleaf | ⟨u, rfl⟩
    · exact absurd ⟨path, v, List.prefix_rfl, hv, hleaf⟩ hfree
    · rw [at?_deepMerge_of_some hdata _ hv, at?_nestUnder, Value.over_table, tableAt_of_some hv]

/-- Underneath, a layer whose path runs into a value that is no table changes nothing. -/
theorem deepMerge_nestUnder_of_leafOn (hdata : data.Ordered) (hleaf : data.LeafOn path) :
    deepMerge (nestUnder path layer) data = data := by
  induction path generalizing data with
  | nil =>
    obtain ⟨way, w, hway, hw, hleaf⟩ := hleaf
    rw [List.prefix_nil.1 hway] at hw
    exact absurd (Option.some.inj hw).symm (hleaf data)
  | cons key rest ih =>
    obtain ⟨v, hv, hleaf⟩ := hleaf.of_cons
    have hnested : (nestUnder (key :: rest) layer).Pairwise (·.1 < ·.1) :=
      List.pairwise_singleton _ _
    apply eq_of_get?_eq (pairwise_deepMerge hnested data) hdata.pairwise
    intro other
    by_cases hkey : key = other
    · subst hkey
      rw [get?_deepMerge_eq_laid _ hdata.pairwise, get?_nestUnder_cons, if_pos rfl, hv, Value.laid]
      rcases hleaf with hleaf | ⟨u, rfl, hleaf⟩
      · rw [Value.over_of_upper hleaf]
      · rw [Value.over_table, ih (hdata.of_get? hv) hleaf]
    · apply get?_deepMerge_of_lower hdata.pairwise
      rw [get?_nestUnder_cons, if_neg hkey]

/-- A value that is not a table is not hidden by what goes underneath. -/
theorem at?_deepMerge_of_leaf (hdata : data.Ordered) (lower : Table) {v : Value}
    (hv : data.at? path = some v) (hleaf : v.IsLeaf) :
    (deepMerge lower data).at? path = some v := by
  rw [at?_deepMerge_of_some hdata lower hv, Value.over_of_upper hleaf]

/-- A table underneath that has nothing at a path leaves the path as it was. -/
theorem at?_deepMerge_of_none {t u : Table} (ht : t.Ordered) (hnone : u.at? path = none) :
    (deepMerge u t).at? path = t.at? path := by
  cases hv : t.at? path with
  | none =>
    by_cases hleaf : t.LeafAbove path
    · exact at?_deepMerge_of_hidden ht u hleaf
    · rw [at?_deepMerge_of_open ht u hv hleaf, hnone]
  | some v => rw [at?_deepMerge_of_some ht u hv, hnone, Value.over_none]

end Placing

end Table

/-! ### Placements -/

/-- Beside the path of a layer everything stays. -/
theorem Placement.at?_beside (p : Placement) {data layer : Table} (hdata : data.Ordered)
    (hlayer : layer.Ordered) {path : List String} (h : ¬ path <+: p.under.segments)
    (h' : ¬ p.under.segments <+: path) : (p.apply data layer).at? path = data.at? path := by
  have hnone := Table.at?_nestUnder_beside layer h h'
  unfold apply
  split
  · exact Table.at?_deepMerge_of_none hdata hnone
  · exact Table.at?_deepMerge_of_open (hlayer.nestUnder _) data hnone
      (Table.not_leafAbove_nestUnder layer h')

theorem Placement.apply_onTop {p : Placement} (h : p.preferExisting = false) (data layer : Table) :
    p.apply data layer = Table.deepMerge data (Table.nestUnder p.under.segments layer) := by
  rw [apply, h]
  rfl

theorem Placement.apply_underneath {p : Placement} (h : p.preferExisting = true)
    (data layer : Table) :
    p.apply data layer = Table.deepMerge (Table.nestUnder p.under.segments layer) data := by
  rw [apply, h]
  rfl

/-- **A layer under a path touches only that place.**  There it is merged with the table that was
    there, on top or underneath.  Beside the path everything stays; and when the layer goes
    underneath, no value that is not a table gets hidden. -/
theorem Tree.merge_under_path {t : Tree} (hdata : t.data.Ordered) {s : Surroundings}
    {source : Source} {layer : Table} (hload : (t.loader.load s source).result = .ok layer)
    (hlayer : layer.Ordered) (p : Placement) :
    ∃ data : Table,
      (t.merge s source p).result = .ok { t with data } ∧
      (p.preferExisting = false →
        data.at? p.under.segments =
          some (.table (Table.deepMerge (t.data.tableAt p.under.segments) layer))) ∧
      (p.preferExisting = true → t.data.LeafOn p.under.segments → data = t.data) ∧
      (p.preferExisting = true → ¬ t.data.LeafOn p.under.segments →
        data.at? p.under.segments =
          some (.table (Table.deepMerge layer (t.data.tableAt p.under.segments)))) ∧
      (∀ path, ¬ path <+: p.under.segments → ¬ p.under.segments <+: path →
        data.at? path = t.data.at? path) ∧
      (p.preferExisting = true →
        ∀ path v, t.data.at? path = some v → v.IsLeaf → data.at? path = some v) := by
  refine ⟨p.apply t.data layer, ?_, ?_, ?_, ?_, ?_, ?_⟩
  · rw [merge, Outcome.bind_result_eq_ok]
    exact ⟨layer, hload, rfl⟩
  · intro htop
    rw [Placement.apply_onTop htop]
    exact Table.at?_deepMerge_nestUnder hlayer
  · intro hunder hleaf
    rw [Placement.apply_underneath hunder]
    exact Table.deepMerge_nestUnder_of_leafOn hdata hleaf
  · intro hunder hfree
    rw [Placement.apply_underneath hunder]
    exact Table.at?_nestUnder_deepMerge hdata hfree
  · intro path h h'
    exact p.at?_beside hdata hlayer h h'
  · intro hunder path v hv hleaf
    rw [Placement.apply_underneath hunder]
    exact Table.at?_deepMerge_of_leaf hdata _ hv hleaf

/-! ### A port for a service -/

namespace Service

def services : Table := [("db", .table [("name", .string "main")]), ("log", .string "off")]

def tree : Tree where
  data := [("services", .table services), ("version", .integer 1)]
  chain := []
  loader := Loader.empty

def layer : Table := [("name", .string "other"), ("port", .integer 5432)]

theorem ordered_tree : tree.data.Ordered := by
  simp only [tree, services, Table.Ordered, Value.Ordered, Value.OrderedEntries]
  decide

theorem ordered_layer : layer.Ordered := by
  simp only [layer, Table.Ordered, Value.Ordered, Value.OrderedEntries]
  decide

theorem db_of_tree :
    tree.data.at? ["services", "db"] = some (.table [("name", .string "main")]) := by
  cbv

theorem log_of_tree : tree.data.at? ["services", "log"] = some (.string "off") := by cbv

/-- On top, underneath, and underneath where a string is in the way. -/
theorem layer_under_services :
    tree.data.Ordered ∧ layer.Ordered ∧
      (∃ data : Table,
        (tree.merge ⟨[], []⟩ (.table layer) ⟨⟨["services", "db"]⟩, false⟩).result =
          .ok { tree with data } ∧
        data.at? ["services", "db"] =
          some (.table [("name", .string "other"), ("port", .integer 5432)]) ∧
        data.at? ["services", "log"] = some (.string "off")) ∧
      (∃ data : Table,
        (tree.merge ⟨[], []⟩ (.table layer) ⟨⟨["services", "db"]⟩, true⟩).result =
          .ok { tree with data } ∧
        data.at? ["services", "db"] =
          some (.table [("name", .string "main"), ("port", .integer 5432)])) ∧
      (tree.merge ⟨[], []⟩ (.table layer) ⟨⟨["services", "log", "level"]⟩, true⟩).result =
        .ok tree := by
  have hload : (tree.loader.load ⟨[], []⟩ (.table layer)).result = .ok layer := rfl
  have hmerge := tree.merge_under_path ordered_tree hload ordered_layer
  refine ⟨ordered_tree, ordered_layer, ?_, ?_, ?_⟩
  · obtain ⟨data, hresult, htop, -, -, hbeside, -⟩ := hmerge ⟨⟨["services", "db"]⟩, false⟩
    refine ⟨data, hresult, ?_, ?_⟩
    · rw [htop rfl, Table.tableAt_of_some db_of_tree]
      cbv
    · rw [hbeside ["services", "log"] (by decide) (by decide)]
      exact log_of_tree
  · obtain ⟨data, hresult, -, -, hunder, -⟩ := hmerge ⟨⟨["services", "db"]⟩, true⟩
    refine ⟨data, hresult, ?_⟩
    rw [hunder rfl (Table.not_leafOn_of_table db_of_tree), Table.tableAt_of_some db_of_tree]
    cbv
  · obtain ⟨data, hresult, -, hblocked, -⟩ := hmerge ⟨⟨["services", "log", "level"]⟩, true⟩
    have hleaf : tree.data.LeafOn ["services", "log", "level"] :=
      ⟨["services", "log"], .string "off", by decide, log_of_tree, Value.isLeaf_string _⟩
    rw [hblocked rfl hleaf] at hresult
    exact hresult

end Service

end LayeredConfig
