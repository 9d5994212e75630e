/-
  LayeredConfig/Proofs/Value/Merging.lean
  =======================================
  **When the grouping of three layers matters.**

  A merge of tables is a merge under every key, so three layers can be followed
  key by key.  They come to the same in both groupings wherever one of them has
  nothing, and wherever the upper one or the lower one has no table.  Where all
  three have tables, the question is the same one key further down.

  What is left is a value between two tables that is no table itself.  Laid over
  the lower table first, it hides that table; but when the upper table is laid
  over it first, it is gone, and the two tables are merged.  So a layer that goes
  underneath of two others afterwards does what it would have done as the first
  one, unless some path ends at such a value (`underneath_afterwards_iff`).
-/
import LayeredConfig.Proofs.Value.Overlay
import LayeredConfig.Tree.Source

namespace LayeredConfig

/-! ### Grouping under one key -/

namespace Value

section Grouping

variable {x y z : Option Value}

theorem laid_assoc_of_upper (h : ∀ u, z ≠ some (.table u)) :
    laid x (laid y z) = laid (laid x y) z := by
  cases z with
  | none => rfl
  | some w =>
    have hw : ∀ u, w ≠ .table u := fun u hu => h u (congrArg some hu)
    simp only [laid, over_of_upper hw]

theorem laid_assoc_of_lower (h : ∀ l, x ≠ some (.table l)) :
    laid x (laid y z) = laid (laid x y) z := by
  cases z with
  | none => rfl
  | some w =>
    cases y with
    | none => simp only [laid, over_none]
    | some v => simp only [laid, over_of_lower h]

/-- Of three layers, the lower one and the upper one have tables, of which the upper one does not
    cover the lower one, and the one in between has a value that is no table. -/
structure Parted (x y z : Option Value) (l : Table) (v : Value) (u : Table) : Prop where
  lower : x = some (.table l)
  middle : y = some v
  leaf : ∀ m, v ≠ .table m
  upper : z = some (.table u)
  uncovered : Table.deepMerge l u ≠ u

/-- The value in between hides the lower table, or is hidden by the upper one. -/
theorem laid_assoc_of_leaf {l u : Table} {v : Value} (h : ∀ m, v ≠ .table m) :
    laid (some (.table l)) (laid (some v) (some (.table u))) =
        laid (laid (some (.table l)) (some v)) (some (.table u)) ↔
      Table.deepMerge l u = u := by
  have hv : ∀ m, some v ≠ some (.table m) := fun m hm => h m (Option.some.inj hm)
  simp only [laid, over_of_lower hv, over_of_upper h, over_table, Option.some.injEq,
    Value.table.injEq]

theorem laid_assoc_of_tables (l m u : Table) :
    laid (some (.table l)) (laid (some (.table m)) (some (.table u))) =
        laid (laid (some (.table l)) (some (.table m))) (some (.table u)) ↔
      Table.deepMerge l (Table.deepMerge m u) = Table.deepMerge (Table.deepMerge l m) u := by
  simp only [laid, over_table, Option.some.injEq, Value.table.injEq]

/-- The grouping does not matter under a key exactly if the layers are not parted there and it does
    not matter for the tables that they have there. -/
theorem laid_assoc_iff :
    laid x (laid y z) = laid (laid x y) z ↔
      (∀ l v u, ¬ Parted x y z l v u) ∧
      ∀ l m u, x = some (.table l) → y = some (.table m) → z = some (.table u) →
        Table.deepMerge l (Table.deepMerge m u) = Table.deepMerge (Table.deepMerge l m) u := by
  rcases no_table_or x with hx | ⟨l, rfl⟩
  · refine iff_of_true (laid_assoc_of_lower hx) ⟨?_, ?_⟩
    · intro l v u h
      exact hx l h.lower
    · intro l m u hl
      exact absurd hl (hx l)
  rcases no_table_or z with hz | ⟨u, rfl⟩
  · refine iff_of_true (laid_assoc_of_upper hz) ⟨?_, ?_⟩
    · intro l v u h
      exact hz u h.upper
    · intro l m u _ _ hu
      exact absurd hu (hz u)
  rcases no_table_or y with hy | ⟨m, rfl⟩
  · cases y with
    | none =>
      refine iff_of_true ?_ ⟨?_, ?_⟩
      · simp only [laid, over_none]
      · intro l' v u' h
        cases h.middle
      · intro l' m u' _ hm
        cases hm
    | some v =>
      have hleaf : ∀ m, v ≠ .table m := fun m hm => hy m (congrArg some hm)
      rw [laid_assoc_of_leaf hleaf]
      constructor
      · intro heq
        refine ⟨?_, ?_⟩
        · intro l' v' u' h
          cases h.lower
          cases h.upper
          exact h.uncovered heq
        · intro l' m u' _ hm
          exact absurd hm (hy m)
      · intro h
        by_cases heq : Table.deepMerge l u = u
        · exact heq
        · exact absurd ⟨rfl, rfl, hleaf, rfl, heq⟩ (h.1 l v u)
  · rw [laid_assoc_of_tables]
    constructor
    · intro heq
      refine ⟨?_, ?_⟩
      · intro l' v u' h
        exact h.leaf m (Option.some.inj h.middle).symm
      · rintro _ _ _ ⟨⟩ ⟨⟩ ⟨⟩
        exact heq
    · intro h
      exact h.2 l m u rfl rfl rfl

end Grouping

end Value

namespace Table

/-! ### Grouping of tables -/

/-- The path leads through tables of three layers to a place where they are parted. -/
def PartedAt (lower middle upper : Table) (path : List String) : Prop :=
  ∃ l v u, Value.Parted (lower.at? path) (middle.at? path) (upper.at? path) l v u

section Grouping

variable {f a b : Table}

theorem not_partedAt_nil : ¬ PartedAt f a b [] := by
  rintro ⟨_, _, _, h⟩
  exact h.leaf a (Option.some.inj h.middle).symm

theorem partedAt_singleton {key : String} :
    PartedAt f a b [key] ↔
      ∃ l v u, Value.Parted (f.get? key) (a.get? key) (b.get? key) l v u := by
  simp only [PartedAt, at?_singleton]

theorem partedAt_of_get? {f' a' b' : Table} {key : String} {rest : List String}
    (hf : f.get? key = some (.table f')) (ha : a.get? key = some (.table a'))
    (hb : b.get? key = some (.table b')) :
    PartedAt f a b (key :: rest) ↔ PartedAt f' a' b' rest := by
  simp only [PartedAt, at?_of_get? hf, at?_of_get? ha, at?_of_get? hb]

/-- A longer path to such a place begins at tables of all three layers. -/
theorem PartedAt.tables {key next : String} {rest : List String}
    (h : PartedAt f a b (key :: next :: rest)) :
    ∃ f' a' b', f.get? key = some (.table f') ∧ a.get? key = some (.table a') ∧
      b.get? key = some (.table b') := by
  obtain ⟨l, v, u, h⟩ := h
  obtain ⟨f', hf, -⟩ := at?_cons_cons h.lower
  obtain ⟨a', ha, -⟩ := at?_cons_cons h.middle
  obtain ⟨b', hb, -⟩ := at?_cons_cons h.upper
  exact ⟨f', a', b', hf, ha, hb⟩

theorem deepMerge_assoc_iff_laid (hf : f.Ordered) (ha : a.Ordered) (hb : b.Ordered) :
    deepMerge f (deepMerge a b) = deepMerge (deepMerge f a) b ↔
      ∀ key, Value.laid (f.get? key) (Value.laid (a.get? key) (b.get? key)) =
        Value.laid (Value.laid (f.get? key) (a.get? key)) (b.get? key) := by
  have hleft : ∀ key, (deepMerge f (deepMerge a b)).get? key =
      Value.laid (f.get? key) (Value.laid (a.get? key) (b.get? key)) := by
    intro key
    rw [get?_deepMerge_eq_laid f (pairwise_deepMerge ha.pairwise b),
      get?_deepMerge_eq_laid a hb.pairwise]
  have hright : ∀ key, (deepMerge (deepMerge f a) b).get? key =
      Value.laid (Value.laid (f.get? key) (a.get? key)) (b.get? key) := by
    intro key
    rw [get?_deepMerge_eq_laid _ hb.pairwise, get?_deepMerge_eq_laid f ha.pairwise]
  constructor
  · intro heq key
    rw [← hleft, ← hright, heq]
  · intro h
    apply eq_of_get?_eq (pairwise_deepMerge hf.pairwise _)
      (pairwise_deepMerge (pairwise_deepMerge hf.pairwise a) b)
    intro key
    rw [hleft, hright, h]

/-- Three layers can be grouped either way exactly if they are parted nowhere. -/
theorem deepMerge_assoc_iff (hf : f.Ordered) (ha : a.Ordered) (hb : b.Ordered) :
    deepMerge f (deepMerge a b) = deepMerge (deepMerge f a) b ↔ ∀ path, ¬ PartedAt f a b path := by
  induction f using Table.induction generalizing a b with
  | step f ih =>
    rw [deepMerge_assoc_iff_laid hf ha hb]
    constructor
    · intro h path hpath
      match path with
      | [] => exact not_partedAt_nil hpath
      | [key] =>
        obtain ⟨l, v, u, hparted⟩ := partedAt_singleton.1 hpath
        exact (Value.laid_assoc_iff.1 (h key)).1 l v u hparted
      | key :: next :: rest =>
        obtain ⟨f', a', b', hf', ha', hb'⟩ := hpath.tables
        have heq := (Value.laid_assoc_iff.1 (h key)).2 f' a' b' hf' ha' hb'
        have hnone := (ih key f' hf' (hf.of_get? hf') (ha.of_get? ha') (hb.of_get? hb')).1 heq
        exact hnone (next :: rest) ((partedAt_of_get? hf' ha' hb').1 hpath)
    · intro h key
      refine Value.laid_assoc_iff.2 ⟨?_, ?_⟩
      · intro l v u hparted
        exact h [key] (partedAt_singleton.2 ⟨l, v, u, hparted⟩)
      · intro f' a' b' hf' ha' hb'
        refine (ih key f' hf' (hf.of_get? hf') (ha.of_get? ha') (hb.of_get? hb')).2 ?_
        intro path hpath
        exact h (key :: path) ((partedAt_of_get? hf' ha' hb').2 hpath)

end Grouping

end Table

/-! ### A layer that goes underneath -/

/-- Underneath everything. -/
def Placement.underneath : Placement := ⟨KeyPath.root, true⟩

namespace Tree

theorem merge_onTop (t : Tree) (s : Surroundings) (layer : Table) :
    t.merge s (.table layer) .onTop = pure { t with data := Table.deepMerge t.data layer } := rfl

theorem merge_underneath (t : Tree) (s : Surroundings) (layer : Table) :
    t.merge s (.table layer) .underneath =
      pure { t with data := Table.deepMerge layer t.data } := rfl

variable {f a b : Table}

/-- A layer `f` that goes underneath of `a` and `b` afterwards does what it would have done as the
    first one, unless a path leads to a value of `a` between tables of `f` and `b`. -/
theorem underneath_afterwards_iff (t : Tree) (s : Surroundings) (ht : t.data = [])
    (hf : f.Ordered) (ha : a.Ordered) (hb : b.Ordered) :
    ∃ afterwards first : Tree,
      (t.merge s (.table a) .onTop >>= fun t => t.merge s (.table b) .onTop >>= fun t =>
        t.merge s (.table f) .underneath).result = .ok afterwards ∧
      (t.merge s (.table f) .onTop >>= fun t => t.merge s (.table a) .onTop >>= fun t =>
        t.merge s (.table b) .onTop).result = .ok first ∧
      afterwards.data = Table.deepMerge f (Table.deepMerge a b) ∧
      first.data = Table.deepMerge (Table.deepMerge f a) b ∧
      (afterwards.data = first.data ↔ ¬ ∃ path, Table.PartedAt f a b path) := by
  simp only [merge_onTop, merge_underneath, pure_bind, ht, Table.deepMerge_of_empty ha,
    Table.deepMerge_of_empty hf]
  refine ⟨_, _, rfl, rfl, rfl, rfl, ?_⟩
  rw [Table.deepMerge_assoc_iff hf ha hb]
  exact not_exists.symm

end Tree

/-! ### A number between two tables -/

namespace Covered

def fallback : Table := [("k", .table [("x", .integer 1)])]

def number : Table := [("k", .integer 1)]

def settings : Table := [("k", .table [("y", .integer 2)])]

theorem fallback_ordered : fallback.Ordered := by
  simp [fallback, Table.Ordered, Value.Ordered, Value.OrderedEntries]

theorem number_ordered : number.Ordered := by
  simp [number, Table.Ordered, Value.Ordered, Value.OrderedEntries]

theorem settings_ordered : settings.Ordered := by
  simp [settings, Table.Ordered, Value.Ordered, Value.OrderedEntries]

theorem parted : Table.PartedAt fallback number settings ["k"] :=
  ⟨[("x", .integer 1)], .integer 1, [("y", .integer 2)], by cbv, by cbv, nofun, by cbv, by decide⟩

/-- Merged first, the fallback is lost under the number; merged afterwards, it shows. -/
theorem differs_underneath :
    fallback.Ordered ∧ number.Ordered ∧ settings.Ordered ∧
    ∃ afterwards first : Tree,
      (Tree.empty.merge ⟨[], []⟩ (.table number) .onTop >>= fun t =>
        t.merge ⟨[], []⟩ (.table settings) .onTop >>= fun t =>
          t.merge ⟨[], []⟩ (.table fallback) .underneath).result = .ok afterwards ∧
      (Tree.empty.merge ⟨[], []⟩ (.table fallback) .onTop >>= fun t =>
        t.merge ⟨[], []⟩ (.table number) .onTop >>= fun t =>
          t.merge ⟨[], []⟩ (.table settings) .onTop).result = .ok first ∧
      afterwards.data ≠ first.data := by
  obtain ⟨afterwards, first, hafterwards, hfirst, -, -, hiff⟩ :=
    Tree.underneath_afterwards_iff Tree.empty ⟨[], []⟩ rfl fallback_ordered number_ordered
      settings_ordered
  refine ⟨fallback_ordered, number_ordered, settings_ordered, afterwards, first, hafterwards,
    hfirst, ?_⟩
  intro heq
  exact hiff.1 heq ⟨["k"], parted⟩

end Covered

end LayeredConfig
