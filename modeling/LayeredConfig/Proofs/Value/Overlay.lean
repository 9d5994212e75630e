/-
  LayeredConfig/Proofs/Value/Overlay.lean
  =======================================
  **What a merge of two tables holds at every path.**

  A merge of tables is a merge under every key, and so it can be followed along a
  path.  Where the upper table has a value, that value stands over what the lower
  table has at the same place (`at?_over`).  Where it has none, the lower table
  shows through, unless the path has run into a value of the upper one that is no
  table and hides all that was below (`at?_over_of_open`, `at?_over_of_hidden`).

  `Overlaid` says this case by case, without a merge.  It tells what a merge holds
  at every path, and no other table holds that (`deepMerge_by_paths`).
-/
import LayeredConfig.Proofs.Value.Order
import LayeredConfig.Value.Merge

namespace LayeredConfig

/-! ### Values under one key -/

namespace Value

theorem over_table (lower upper : Table) :
    Value.over (some (.table lower)) (.table upper) = .table (Table.deepMerge lower upper) := by
  rw [Value.over]

/-- A value that is no table hides what it is laid over. -/
theorem over_of_upper {upper : Value} (h : ∀ u, upper ≠ .table u) (lower : Option Value) :
    Value.over lower upper = upper := by
  rw [Value.over]
  intro _ u _ hu
  exact h u hu

/-- What is laid over something that is no table hides it. -/
theorem over_of_lower {lower : Option Value} (h : ∀ l, lower ≠ some (.table l)) (upper : Value) :
    Value.over lower upper = upper := by
  rw [Value.over]
  intro l _ hl _
  exact h l hl

theorem over_none (upper : Value) : Value.over none upper = upper := by
  apply over_of_lower
  intro l hl
  cases hl

/-- What stands under a key after a merge of tables that hold these values there. -/
def laid (lower : Option Value) : Option Value → Option Value
  | some upper => some (Value.over lower upper)
  | none => lower

theorem no_table_or (x : Option Value) :
    (∀ l, x ≠ some (.table l)) ∨ ∃ l, x = some (.table l) := by
  by_cases h : ∃ l, x = some (.table l)
  · exact .inr h
  · exact .inl fun l hl => h ⟨l, hl⟩

end Value

namespace Table

/-! ### Merged tables -/

theorem get?_deepMerge_eq_laid (lower : Table) {upper : Table} (h : upper.Pairwise (·.1 < ·.1))
    (key : String) :
    (deepMerge lower upper).get? key = Value.laid (lower.get? key) (upper.get? key) := by
  rw [get?_deepMerge lower h]
  cases upper.get? key <;> rfl

/-- A layer changes nothing under a key that it does not have. -/
theorem get?_deepMerge_of_upper {upper : Table} {key : String} (h : upper.get? key = none)
    (lower : Table) : (deepMerge lower upper).get? key = lower.get? key := by
  induction upper generalizing lower with
  | nil => rw [deepMerge_nil]
  | cons entry rest ih =>
    obtain ⟨k, v⟩ := entry
    rw [get?_cons] at h
    by_cases hk : k = key
    · rw [if_pos hk] at h
      cases h
    · rw [if_neg hk] at h
      rw [deepMerge, ih h, get?_insert, if_neg hk]

/-- What is put underneath shows under no key that it does not have. -/
theorem get?_deepMerge_of_lower {lower upper : Table} (hupper : upper.Pairwise (·.1 < ·.1))
    {key : String} (h : lower.get? key = none) :
    (deepMerge lower upper).get? key = upper.get? key := by
  rw [get?_deepMerge_eq_laid lower hupper, h]
  cases upper.get? key with
  | none => rfl
  | some v => exact congrArg some (Value.over_none v)

/-- Laid over nothing, a table is as it was. -/
theorem deepMerge_of_empty {t : Table} (h : t.Ordered) : deepMerge [] t = t := by
  apply eq_of_get?_eq (pairwise_deepMerge List.Pairwise.nil t) h.pairwise
  intro key
  exact get?_deepMerge_of_lower h.pairwise (get?_nil key)

end Table

/-! ### Values along a path -/

namespace Value

/-- A value that is no table; no path leads on from it. -/
def IsLeaf (v : Value) : Prop := ∀ t, v ≠ .table t

theorem isLeaf_string (s : String) : (Value.string s).IsLeaf := by
  intro t h
  cases h

theorem isLeaf_integer (i : Int64) : (Value.integer i).IsLeaf := by
  intro t h
  cases h

theorem IsLeaf.at?_cons {v : Value} (h : v.IsLeaf) (key : String) (rest : List String) :
    v.at? (key :: rest) = none := by
  cases v with
  | table t => exact absurd rfl (h t)
  | _ => simp only [at?]

theorem isLeaf_or_table (v : Value) : v.IsLeaf ∨ ∃ t, v = .table t := by
  cases v with
  | table t => exact .inr ⟨t, rfl⟩
  | _ => exact .inl nofun

theorem at?_cons (t : Table) (key : String) (rest : List String) :
    (Value.table t).at? (key :: rest) = (t.get? key).bind fun v => v.at? rest := by
  rw [at?]
  cases t.get? key <;> rfl

/-- To follow one path and then another is to follow both in one. -/
theorem at?_append (v : Value) (path rest : List String) :
    v.at? (path ++ rest) = (v.at? path).bind fun w => w.at? rest := by
  induction path generalizing v with
  | nil => rw [List.nil_append, at?, Option.bind_some]
  | cons key path ih =>
    rcases isLeaf_or_table v with hv | ⟨t, rfl⟩
    · rw [List.cons_append, hv.at?_cons, hv.at?_cons, Option.bind_none]
    · rw [List.cons_append, at?_cons, at?_cons]
      cases Table.get? t key with
      | none => rfl
      | some w => exact ih w

theorem bind_at?_of_no_table {x : Option Value} (h : ∀ t, x ≠ some (.table t)) (key : String)
    (rest : List String) : (x.bind fun v => v.at? (key :: rest)) = none := by
  cases x with
  | none => rfl
  | some v =>
    have hv : v.IsLeaf := fun t ht => h t (congrArg some ht)
    exact hv.at?_cons key rest

/-- No leaf stands on the way to a table. -/
theorem not_isLeaf_of_prefix {v w : Value} {way path : List String} {t : Table}
    (ht : v.at? path = some (.table t)) (hway : way <+: path) (hw : v.at? way = some w) :
    ¬ w.IsLeaf := by
  intro hleaf
  obtain ⟨rest, rfl⟩ := hway
  rw [at?_append, hw, Option.bind_some] at ht
  cases rest with
  | nil => exact hleaf t (Option.some.inj ht)
  | cons key rest =>
    rw [hleaf.at?_cons] at ht
    cases ht

end Value

namespace Table

theorem at?_cons (t : Table) (key : String) (rest : List String) :
    t.at? (key :: rest) = (t.get? key).bind fun v => v.at? rest := Value.at?_cons t key rest

/-- The value under the first key of a longer path that leads to a value is a table. -/
theorem at?_cons_cons {t : Table} {key next : String} {rest : List String} {v : Value}
    (h : t.at? (key :: next :: rest) = some v) :
    ∃ u, t.get? key = some (.table u) ∧ Table.at? u (next :: rest) = some v := by
  rw [at?_cons] at h
  obtain ⟨w, hw, h⟩ := Option.bind_eq_some_iff.1 h
  rcases w.isLeaf_or_table with hleaf | ⟨u, rfl⟩
  · rw [hleaf.at?_cons] at h
    cases h
  · exact ⟨u, hw, h⟩

theorem at?_singleton (t : Table) (key : String) : t.at? [key] = t.get? key := by
  rw [at?_cons]
  cases t.get? key <;> rfl

theorem at?_of_get? {t u : Table} {key : String} (h : t.get? key = some (.table u))
    (rest : List String) : t.at? (key :: rest) = u.at? rest := by
  rw [at?_cons, h]
  rfl

end Table

/-! ### Merges along a path -/

namespace Value

/-- On the way to the end of the path stands a value that is no table. -/
def LeafAbove (v : Value) (path : List String) : Prop :=
  ∃ way w, way <+: path ∧ way ≠ path ∧ v.at? way = some w ∧ w.IsLeaf

theorem LeafAbove.cons {t : Table} {key : String} {v : Value} (hv : t.get? key = some v)
    {rest : List String} (h : v.LeafAbove rest) : (Value.table t).LeafAbove (key :: rest) := by
  obtain ⟨way, w, hway, hne, hw, hleaf⟩ := h
  refine ⟨key :: way, w, List.cons_prefix_cons.2 ⟨rfl, hway⟩, ?_, ?_, hleaf⟩
  · intro heq
    exact hne (List.cons.inj heq).2
  · rw [at?_cons, hv, Option.bind_some, hw]

theorem not_leafAbove_of_table {v : Value} {path : List String} {t : Table}
    (h : v.at? path = some (.table t)) (key : String) : ¬ v.LeafAbove (path ++ [key]) := by
  rintro ⟨way, w, hway, hne, hw, hleaf⟩
  rcases List.prefix_concat_iff.1 hway with heq | hway
  · exact hne heq
  · exact not_isLeaf_of_prefix h hway hw hleaf

/-- Where the upper value has something, that stands over what the lower one has there. -/
theorem at?_over {upper : Value} (h : upper.Ordered) {path : List String} {v : Value}
    (hv : upper.at? path = some v) (lower : Option Value) :
    (Value.over lower upper).at? path = some (Value.over (lower.bind fun l => l.at? path) v) := by
  induction path generalizing upper lower with
  | nil =>
    rw [at?] at hv
    obtain rfl := Option.some.inj hv
    simp only [at?, Option.bind_fun_some]
  | cons key rest ih =>
    rcases isLeaf_or_table upper with hleaf | ⟨u, rfl⟩
    · rw [hleaf.at?_cons] at hv
      cases hv
    · rw [at?_cons] at hv
      obtain ⟨w, hw, hv⟩ := Option.bind_eq_some_iff.1 hv
      rcases no_table_or lower with hlower | ⟨l, rfl⟩
      · rw [over_of_lower hlower, bind_at?_of_no_table hlower, over_none, at?_cons, hw,
          Option.bind_some, hv]
      · rw [over_table, at?_cons, Table.get?_deepMerge_eq_laid l (Table.Ordered.pairwise h), hw]
        have hordered := Table.orderedEntries_get? (Table.Ordered.entries h) hw
        have hbelow := ih hordered hv (Table.get? l key)
        rw [laid, Option.bind_some, hbelow, Option.bind_some, at?_cons]

/-- Where the upper value has nothing, because a leaf stands on the way, there is nothing. -/
theorem at?_over_of_hidden {upper : Value} (h : upper.Ordered) {path : List String}
    (hleaf : upper.LeafAbove path) (lower : Option Value) :
    (Value.over lower upper).at? path = none := by
  obtain ⟨way, w, ⟨rest, rfl⟩, hne, hw, hleaf⟩ := hleaf
  rw [at?_append, at?_over h hw, over_of_upper hleaf, Option.bind_some]
  cases rest with
  | nil => exact absurd (List.append_nil way).symm hne
  | cons key rest => exact hleaf.at?_cons key rest

/-- Where the upper value has nothing, and no leaf stands on the way, the lower one shows. -/
theorem at?_over_of_open {upper : Value} (h : upper.Ordered) {path : List String}
    (hnone : upper.at? path = none) (hopen : ¬ upper.LeafAbove path) (lower : Option Value) :
    (Value.over lower upper).at? path = lower.bind fun l => l.at? path := by
  induction path generalizing upper lower with
  | nil =>
    rw [at?] at hnone
    cases hnone
  | cons key rest ih =>
    rcases isLeaf_or_table upper with hleaf | ⟨u, rfl⟩
    · exact absurd ⟨[], upper, List.nil_prefix, (List.cons_ne_nil key rest).symm, rfl, hleaf⟩ hopen
    · rw [at?_cons] at hnone
      have hu := Table.Ordered.pairwise h
      rcases no_table_or lower with hlower | ⟨l, rfl⟩
      · rw [over_of_lower hlower, at?_cons, hnone, bind_at?_of_no_table hlower]
      · rw [over_table, at?_cons, Table.get?_deepMerge_eq_laid l hu, Option.bind_some, at?_cons]
        cases hw : Table.get? u key with
        | none => rfl
        | some w =>
          rw [hw, Option.bind_some] at hnone
          have hopen' : ¬ w.LeafAbove rest := fun hleaf => hopen (hleaf.cons hw)
          have hordered := Table.orderedEntries_get? (Table.Ordered.entries h) hw
          exact ih hordered hnone hopen' (Table.get? l key)

end Value

namespace Table

/-- On the way to the end of the path stands a value that is no table. -/
def LeafAbove (t : Table) (path : List String) : Prop := (Value.table t).LeafAbove path

section Merges

variable {upper : Table} (h : upper.Ordered) {path : List String} (lower : Table)
include h

theorem at?_deepMerge_of_some {v : Value} (hv : upper.at? path = some v) :
    (deepMerge lower upper).at? path = some (Value.over (lower.at? path) v) := by
  have hover := Value.at?_over h hv (some (.table lower))
  rwa [Value.over_table] at hover

theorem at?_deepMerge_of_hidden (hleaf : upper.LeafAbove path) :
    (deepMerge lower upper).at? path = none := by
  have hover := Value.at?_over_of_hidden h hleaf (some (.table lower))
  rwa [Value.over_table] at hover

theorem at?_deepMerge_of_open (hnone : upper.at? path = none) (hopen : ¬ upper.LeafAbove path) :
    (deepMerge lower upper).at? path = lower.at? path := by
  have hover := Value.at?_over_of_open h hnone hopen (some (.table lower))
  rwa [Value.over_table] at hover

end Merges

/-- A merge of ordered tables is ordered. -/
theorem Ordered.deepMerge {lower upper : Table} (hlower : lower.Ordered) (hupper : upper.Ordered) :
    (Table.deepMerge lower upper).Ordered := by
  induction upper using Table.induction generalizing lower with
  | step upper ih =>
    apply ordered_of_get? (pairwise_deepMerge hlower.pairwise upper)
    intro key v hv
    rw [get?_deepMerge_eq_laid lower hupper.pairwise] at hv
    cases hw : upper.get? key with
    | none =>
      rw [hw] at hv
      exact orderedEntries_get? hlower.entries hv
    | some w =>
      rw [hw] at hv
      obtain rfl := Option.some.inj hv
      have hordered := orderedEntries_get? hupper.entries hw
      rcases Value.no_table_or (lower.get? key) with hnone | ⟨l, hl⟩
      · rwa [Value.over_of_lower hnone]
      · rcases w.isLeaf_or_table with hleaf | ⟨u, rfl⟩
        · rwa [Value.over_of_upper hleaf]
        · rw [hl, Value.over_table]
          exact ih key u hw (hlower.of_get? hl) hordered

/-! ### The merge as a whole -/

/-- What there is at a path when one table lies over another one. -/
inductive Overlaid (base overlay : Table) (path : List String) : Option Value → Prop where
  | leaf {v : Value} :
      overlay.at? path = some v → v.IsLeaf → Overlaid base overlay path (some v)
  | tables {l u : Table} :
      overlay.at? path = some (.table u) → base.at? path = some (.table l) →
      Overlaid base overlay path (some (.table (Table.deepMerge l u)))
  | table {u : Table} :
      overlay.at? path = some (.table u) → (∀ l, base.at? path ≠ some (.table l)) →
      Overlaid base overlay path (some (.table u))
  | below :
      overlay.at? path = none → ¬ overlay.LeafAbove path →
      Overlaid base overlay path (base.at? path)
  | hidden :
      overlay.at? path = none → overlay.LeafAbove path → Overlaid base overlay path none

theorem Overlaid.eq {base overlay : Table} (ho : overlay.Ordered) {path : List String}
    {x : Option Value} (h : Overlaid base overlay path x) :
    (deepMerge base overlay).at? path = x := by
  cases h with
  | leaf hv hleaf => rw [at?_deepMerge_of_some ho base hv, Value.over_of_upper hleaf]
  | tables hu hl => rw [at?_deepMerge_of_some ho base hu, hl, Value.over_table]
  | table hu hbase => rw [at?_deepMerge_of_some ho base hu, Value.over_of_lower hbase]
  | below hnone hopen => exact at?_deepMerge_of_open ho base hnone hopen
  | hidden _ hleaf => exact at?_deepMerge_of_hidden ho base hleaf

theorem exists_overlaid (base overlay : Table) (path : List String) :
    ∃ x, Overlaid base overlay path x := by
  cases hv : overlay.at? path with
  | none =>
    by_cases hleaf : overlay.LeafAbove path
    · exact ⟨none, .hidden hv hleaf⟩
    · exact ⟨base.at? path, .below hv hleaf⟩
  | some v =>
    rcases v.isLeaf_or_table with hleaf | ⟨u, rfl⟩
    · exact ⟨some v, .leaf hv hleaf⟩
    · rcases Value.no_table_or (base.at? path) with hbase | ⟨l, hl⟩
      · exact ⟨some (.table u), .table hv hbase⟩
      · exact ⟨some (.table (deepMerge l u)), .tables hv hl⟩

/-- **A merge, path by path.**  At every path it holds what `Overlaid` says, and it is the only
    table that holds this at all paths below the root. -/
theorem deepMerge_by_paths {base overlay : Table} (hb : base.Ordered) (ho : overlay.Ordered) :
    (∀ path x, Overlaid base overlay path x ↔ (deepMerge base overlay).at? path = x) ∧
    (deepMerge base overlay).Ordered ∧
    ∀ m : Table, m.Ordered → (∀ path, path ≠ [] → Overlaid base overlay path (m.at? path)) →
      m = deepMerge base overlay := by
  refine ⟨?_, hb.deepMerge ho, ?_⟩
  · intro path x
    constructor
    · exact fun h => h.eq ho
    · rintro rfl
      obtain ⟨x, hx⟩ := exists_overlaid base overlay path
      rwa [hx.eq ho]
  · intro m hm h
    apply eq_of_get?_eq hm.pairwise (hb.deepMerge ho).pairwise
    intro key
    have hkey := (h [key] (List.cons_ne_nil key [])).eq ho
    rw [at?_singleton, at?_singleton] at hkey
    exact hkey.symm

end Table

/-! ### Settings over defaults -/

namespace OverDefaults

def defaults : Table :=
  [("db", .table [("host", .string "a"), ("port", .integer 1)]),
    ("level", .table [("file", .integer 1)]), ("name", .string "x")]

def settings : Table :=
  [("db", .table [("port", .integer 2)]), ("level", .integer 5),
    ("name", .table [("first", .string "y")])]

theorem ordered_defaults : defaults.Ordered := by
  simp only [defaults, Table.Ordered, Value.Ordered, Value.OrderedEntries]
  decide

theorem ordered_settings : settings.Ordered := by
  simp only [settings, Table.Ordered, Value.Ordered, Value.OrderedEntries]
  decide

theorem db_of_settings : settings.at? ["db"] = some (.table [("port", .integer 2)]) := by cbv

/-- One path for each case. -/
theorem settings_over_defaults :
    defaults.Ordered ∧ settings.Ordered ∧
      let m := Table.deepMerge defaults settings
      m.at? ["db", "port"] = some (.integer 2) ∧
      m.at? ["db"] = some (.table (Table.deepMerge
        [("host", .string "a"), ("port", .integer 1)] [("port", .integer 2)])) ∧
      m.at? ["name"] = some (.table [("first", .string "y")]) ∧
      m.at? ["db", "host"] = some (.string "a") ∧
      m.at? ["level", "file"] = none := by
  obtain ⟨hpaths, -, -⟩ := Table.deepMerge_by_paths ordered_defaults ordered_settings
  have hhost : defaults.at? ["db", "host"] = some (.string "a") := by cbv
  have hname : defaults.at? ["name"] = some (.string "x") := by cbv
  refine ⟨ordered_defaults, ordered_settings, ?_, ?_, ?_, ?_, ?_⟩
  · exact (hpaths _ _).1 (.leaf (by cbv) (Value.isLeaf_integer 2))
  · exact (hpaths _ _).1 (.tables db_of_settings (by cbv))
  · refine (hpaths _ _).1 (.table (by cbv) ?_)
    intro l hl
    cases hname.symm.trans hl
  · rw [← hhost]
    exact (hpaths _ _).1 (.below (by cbv) (Value.not_leafAbove_of_table db_of_settings "host"))
  · have hlevel : settings.LeafAbove ["level", "file"] :=
      ⟨["level"], .integer 5, by decide, by decide, by cbv, Value.isLeaf_integer 5⟩
    exact (hpaths _ _).1 (.hidden (by cbv) hlevel)

end OverDefaults

end LayeredConfig
