/-
  LayeredConfig/Proofs/Value/Compatible.lean
  ==========================================
  **Layers that do not conflict.**

  Two tables are compatible if at every path that leads to something in both they
  have two tables, or the same value that is no table.  Of two such layers it does
  not matter which one is laid first, whatever they are laid on
  (`deepMerge_right_comm`): what one of them hides in the data below, the other
  one hides as well or does not touch.

  So a list of layers of which any two are compatible comes to the same in any
  order (`foldl_deepMerge_perm`), and since each of them might as well be the last
  one, what it holds is there in the end (`at?_foldl_deepMerge_of_leaf`).
-/
import LayeredConfig.Proofs.Value.Overlay
import Mathlib.Data.List.Pairwise

namespace LayeredConfig.Table

/-- At every path that leads to something in both tables, they have two tables there or one and the
    same other value. -/
def Compatible (a b : Table) : Prop :=
  ∀ path v w, a.at? path = some v → b.at? path = some w →
    (∃ t u, v = .table t ∧ w = .table u) ∨ (v = w ∧ v.IsLeaf)

namespace Compatible

variable {a b : Table}

theorem symm (h : Compatible a b) : Compatible b a := by
  intro path w v hw hv
  rcases h path v w hv hw with ⟨t, u, rfl, rfl⟩ | ⟨rfl, hleaf⟩
  · exact .inl ⟨u, t, rfl, rfl⟩
  · exact .inr ⟨rfl, hleaf⟩

theorem refl (a : Table) : Compatible a a := by
  intro path v w hv hw
  obtain rfl := Option.some.inj (hv.symm.trans hw)
  rcases v.isLeaf_or_table with hleaf | ⟨t, rfl⟩
  · exact .inr ⟨rfl, hleaf⟩
  · exact .inl ⟨t, t, rfl, rfl⟩

instance : Std.Symm Compatible := ⟨fun _ _ h => h.symm⟩

theorem get? (h : Compatible a b) {key : String} {v w : Value} (hv : a.get? key = some v)
    (hw : b.get? key = some w) : (∃ t u, v = .table t ∧ w = .table u) ∨ (v = w ∧ v.IsLeaf) := by
  apply h [key]
  · rwa [at?_singleton]
  · rwa [at?_singleton]

/-- Tables under one key of compatible tables are compatible. -/
theorem of_get? (h : Compatible a b) {key : String} {t u : Table}
    (ht : a.get? key = some (.table t)) (hu : b.get? key = some (.table u)) : Compatible t u := by
  intro path v w hv hw
  apply h (key :: path)
  · rwa [at?_of_get? ht]
  · rwa [at?_of_get? hu]

/-- Tables are compatible if what they both have under a key is compatible tables or the same. -/
theorem of_keys (h : ∀ key v w, a.get? key = some v → b.get? key = some w →
    (∃ t u, v = .table t ∧ w = .table u ∧ Compatible t u) ∨ (v = w ∧ v.IsLeaf)) :
    Compatible a b := by
  intro path v w hv hw
  cases path with
  | nil =>
    obtain rfl := Option.some.inj hv
    obtain rfl := Option.some.inj hw
    exact .inl ⟨a, b, rfl, rfl⟩
  | cons key rest =>
    rw [at?_cons] at hv hw
    obtain ⟨v', hv', hv⟩ := Option.bind_eq_some_iff.1 hv
    obtain ⟨w', hw', hw⟩ := Option.bind_eq_some_iff.1 hw
    rcases h key v' w' hv' hw' with ⟨t, u, rfl, rfl, htu⟩ | ⟨rfl, hleaf⟩
    · exact htu rest v w hv hw
    · cases rest with
      | nil =>
        obtain rfl := Option.some.inj hv
        obtain rfl := Option.some.inj hw
        exact .inr ⟨rfl, hleaf⟩
      | cons next rest =>
        rw [hleaf.at?_cons] at hv
        cases hv

theorem of_disjoint (h : ∀ key, a.get? key = none ∨ b.get? key = none) : Compatible a b := by
  apply of_keys
  intro key v w hv hw
  rcases h key with ha | hb
  · cases ha.symm.trans hv
  · cases hb.symm.trans hw

/-- Compatible tables are compatible under any path. -/
theorem nestUnder (h : Compatible a b) (path : List String) :
    Compatible (Table.nestUnder path a) (Table.nestUnder path b) := by
  induction path with
  | nil => exact h
  | cons key rest ih =>
    apply of_keys
    intro key' v w hv hw
    simp only [Table.nestUnder, List.foldr_cons, Table.get?, Option.ite_none_right_eq_some,
      Option.some.injEq] at hv hw
    obtain ⟨-, rfl⟩ := hv
    obtain ⟨-, rfl⟩ := hw
    exact .inl ⟨_, _, rfl, rfl, ih⟩

end Compatible

/-! ### Two layers -/

/-- Two tables that commute over every table commute over any value. -/
theorem laid_right_comm {t u : Table} (ht : t.Ordered) (hu : u.Ordered)
    (h : ∀ d : Table, d.Ordered → deepMerge (deepMerge d t) u = deepMerge (deepMerge d u) t)
    {x : Option Value} (hx : ∀ l, x = some (.table l) → Table.Ordered l) :
    Value.laid (Value.laid x (some (.table t))) (some (.table u)) =
      Value.laid (Value.laid x (some (.table u))) (some (.table t)) := by
  rcases Value.no_table_or x with hnone | ⟨l, rfl⟩
  · have hempty := h [] ⟨List.Pairwise.nil, trivial⟩
    rw [deepMerge_of_empty ht, deepMerge_of_empty hu] at hempty
    simp only [Value.laid, Value.over_of_lower hnone, Value.over_table, hempty]
  · simp only [Value.laid, Value.over_table, h l (hx l rfl)]

/-- **Of two compatible layers either one may be laid first.** -/
theorem deepMerge_right_comm {d a b : Table} (hd : d.Ordered) (ha : a.Ordered) (hb : b.Ordered)
    (hab : Compatible a b) : deepMerge (deepMerge d a) b = deepMerge (deepMerge d b) a := by
  induction a using Table.induction generalizing d b with
  | step a ih =>
    apply eq_of_get?_eq (pairwise_deepMerge (pairwise_deepMerge hd.pairwise a) b)
      (pairwise_deepMerge (pairwise_deepMerge hd.pairwise b) a)
    intro key
    simp only [get?_deepMerge_eq_laid _ ha.pairwise, get?_deepMerge_eq_laid _ hb.pairwise]
    cases hv : a.get? key with
    | none => rfl
    | some v =>
      cases hw : b.get? key with
      | none => rfl
      | some w =>
        rcases hab.get? hv hw with ⟨t, u, rfl, rfl⟩ | ⟨rfl, -⟩
        · apply laid_right_comm (ha.of_get? hv) (hb.of_get? hw)
          · intro d' hd'
            exact ih key t hv hd' (ha.of_get? hv) (hb.of_get? hw) (hab.of_get? hv hw)
          · intro l hl
            exact hd.of_get? hl
        · rfl

/-! ### Any number of layers -/

/-- All layers are ordered, and any two of them are compatible. -/
structure Peaceful (layers : List Table) : Prop where
  ordered : ∀ a ∈ layers, a.Ordered
  compatible : ∀ a ∈ layers, ∀ b ∈ layers, Compatible a b

namespace Peaceful

variable {layers layers' : List Table}

theorem of_pairwise (hordered : ∀ a ∈ layers, a.Ordered) (h : layers.Pairwise Compatible) :
    Peaceful layers := by
  refine ⟨hordered, ?_⟩
  intro a ha b hb
  exact h.forall_of_forall (fun a _ => Compatible.refl a) ha hb

theorem tail {a : Table} (h : Peaceful (a :: layers)) : Peaceful layers :=
  ⟨fun b hb => h.ordered b (List.mem_cons_of_mem _ hb), fun b hb c hc =>
    h.compatible b (List.mem_cons_of_mem _ hb) c (List.mem_cons_of_mem _ hc)⟩

theorem of_perm (h : Peaceful layers) (hp : layers.Perm layers') : Peaceful layers' :=
  ⟨fun a ha => h.ordered a (hp.mem_iff.2 ha), fun a ha b hb =>
    h.compatible a (hp.mem_iff.2 ha) b (hp.mem_iff.2 hb)⟩

end Peaceful

/-- The order of compatible layers does not matter. -/
theorem foldl_deepMerge_perm {d : Table} (hd : d.Ordered) {layers layers' : List Table}
    (h : Peaceful layers) (hp : layers.Perm layers') :
    layers.foldl deepMerge d = layers'.foldl deepMerge d := by
  induction hp generalizing d with
  | nil => rfl
  | cons a _ ih => exact ih (hd.deepMerge (h.ordered a List.mem_cons_self)) h.tail
  | swap a b rest =>
    have ha := h.ordered a (List.mem_cons_of_mem _ List.mem_cons_self)
    have hb := h.ordered b List.mem_cons_self
    have hba := h.compatible b List.mem_cons_self a (List.mem_cons_of_mem _ List.mem_cons_self)
    rw [List.foldl_cons, List.foldl_cons, List.foldl_cons, List.foldl_cons,
      deepMerge_right_comm hd hb ha hba]
  | trans hp _ ih ih' => exact (ih hd h).trans (ih' hd (h.of_perm hp))

/-- What a layer holds and is no table is there after all of them. -/
theorem at?_foldl_deepMerge_of_leaf {d : Table} (hd : d.Ordered) {layers : List Table}
    (h : Peaceful layers) {a : Table} (ha : a ∈ layers) {path : List String} {v : Value}
    (hv : a.at? path = some v) (hleaf : v.IsLeaf) :
    (layers.foldl deepMerge d).at? path = some v := by
  -- the layer is laid as the last one
  obtain ⟨before, behind, rfl⟩ := List.append_of_mem ha
  have hlast : (before ++ a :: behind).Perm ((before ++ behind) ++ [a]) :=
    List.perm_middle.trans (List.perm_append_singleton a _).symm
  rw [foldl_deepMerge_perm hd h hlast, List.foldl_append, List.foldl_cons, List.foldl_nil,
    at?_deepMerge_of_some (h.ordered a ha) _ hv, Value.over_of_upper hleaf]

end LayeredConfig.Table
