/-
  LayeredConfig/Proofs/Value/Order.lean
  =====================================
  **Tables with their keys in order.**

  An ordered table is its entries: two of them that have the same value under
  every key are one table (`eq_of_get?_eq`), and the order of its values is what
  is left to show of a table whose keys increase (`ordered_of_get?`).  What is
  proved of a table by way of the tables under its keys holds of all tables
  (`induction`).
-/
import LayeredConfig.Value.Table

namespace LayeredConfig.Table

/-! ### Tables under keys -/

theorem sizeOf_lt_of_get? {t : Table} {key : String} {v : Value} (h : t.get? key = some v) :
    sizeOf v < sizeOf t := by
  induction t with
  | nil => cases h
  | cons entry rest ih =>
    obtain ⟨k, w⟩ := entry
    rw [get?_cons] at h
    by_cases hk : k = key
    · rw [if_pos hk] at h
      obtain rfl := Option.some.inj h
      simp only [List.cons.sizeOf_spec, Prod.mk.sizeOf_spec]
      omega
    · rw [if_neg hk] at h
      have hrest := ih h
      simp only [List.cons.sizeOf_spec]
      omega

/-- What a table inherits from the tables under its keys, all tables have. -/
theorem induction {P : Table → Prop}
    (step : ∀ t : Table, (∀ key u, t.get? key = some (.table u) → P u) → P t) (t : Table) : P t :=
  step t fun _ u hu =>
    have : sizeOf u < sizeOf t := by
      have hlt := sizeOf_lt_of_get? hu
      simp only [Value.table.sizeOf_spec] at hlt
      omega
    induction step u
termination_by sizeOf t

theorem Ordered.pairwise {t : Table} (h : t.Ordered) : t.Pairwise (·.1 < ·.1) := by
  rw [Table.Ordered, Value.Ordered] at h
  exact h.1

theorem Ordered.entries {t : Table} (h : t.Ordered) : Value.OrderedEntries t := by
  rw [Table.Ordered, Value.Ordered] at h
  exact h.2

/-- A value in an ordered table is ordered. -/
theorem orderedEntries_get? {t : Table} (h : Value.OrderedEntries t) {key : String} {v : Value}
    (hv : t.get? key = some v) : v.Ordered := by
  induction t with
  | nil => cases hv
  | cons entry rest ih =>
    obtain ⟨k, w⟩ := entry
    rw [Value.OrderedEntries] at h
    rw [get?_cons] at hv
    by_cases hk : k = key
    · rw [if_pos hk] at hv
      obtain rfl := Option.some.inj hv
      exact h.1
    · rw [if_neg hk] at hv
      exact ih h.2 hv

theorem Ordered.of_get? {t u : Table} {key : String} (h : t.Ordered)
    (hu : t.get? key = some (.table u)) : u.Ordered :=
  orderedEntries_get? h.entries hu

/-! ### Equal tables -/

/-- There is nothing under a key that comes before all others. -/
theorem get?_eq_none_of_lt {t : Table} {key : String} (h : ∀ entry ∈ t, key < entry.1) :
    t.get? key = none :=
  get?_eq_none fun entry hentry => (Std.ne_of_lt (h entry hentry)).symm

/-- The first key of a table does not come before the keys of a table with the same values. -/
theorem not_lt_of_get?_eq {k l : String} {v w : Value} {t u : Table}
    (hu : ∀ entry ∈ u, l < entry.1) (h : get? ((k, v) :: t) k = get? ((l, w) :: u) k) :
    ¬ k < l := by
  intro hlt
  have hnone : get? ((l, w) :: u) k = none := by
    apply get?_eq_none_of_lt
    intro entry hentry
    rcases List.mem_cons.1 hentry with rfl | hentry
    · exact hlt
    · exact String.lt_trans hlt (hu entry hentry)
  rw [hnone, get?_cons, if_pos rfl] at h
  cases h

/-- Two tables with increasing keys and the same value under every key are one. -/
theorem eq_of_get?_eq {t u : Table} (ht : t.Pairwise (·.1 < ·.1)) (hu : u.Pairwise (·.1 < ·.1))
    (h : ∀ key, t.get? key = u.get? key) : t = u := by
  induction t generalizing u with
  | nil =>
    cases u with
    | nil => rfl
    | cons entry u =>
      have hkey := h entry.1
      rw [get?_nil, get?_cons, if_pos rfl] at hkey
      cases hkey
  | cons entry t ih =>
    obtain ⟨k, v⟩ := entry
    cases u with
    | nil =>
      have hkey := h k
      rw [get?_nil, get?_cons, if_pos rfl] at hkey
      cases hkey
    | cons entry u =>
      obtain ⟨l, w⟩ := entry
      obtain ⟨hbehind, htail⟩ := List.pairwise_cons.1 ht
      obtain ⟨hbehind', htail'⟩ := List.pairwise_cons.1 hu
      have hle : ¬ k < l := not_lt_of_get?_eq hbehind' (h k)
      have hge : ¬ l < k := not_lt_of_get?_eq hbehind (h l).symm
      obtain rfl : k = l := String.le_antisymm hge hle
      have hkey := h k
      rw [get?_cons, get?_cons, if_pos rfl, if_pos rfl] at hkey
      obtain rfl := Option.some.inj hkey
      have hrest : t = u := by
        apply ih htail htail'
        intro key
        by_cases hk : k = key
        · subst hk
          rw [get?_eq_none_of_lt hbehind, get?_eq_none_of_lt hbehind']
        · have hkey := h key
          rwa [get?_cons, get?_cons, if_neg hk, if_neg hk] at hkey
      rw [hrest]

/-! ### Ordered values under keys -/

theorem get?_of_mem {t : Table} (ht : t.Pairwise (·.1 < ·.1)) {key : String} {v : Value}
    (h : (key, v) ∈ t) : t.get? key = some v := by
  induction t with
  | nil => cases h
  | cons entry rest ih =>
    obtain ⟨k, w⟩ := entry
    obtain ⟨hbehind, htail⟩ := List.pairwise_cons.1 ht
    rw [get?_cons]
    rcases List.mem_cons.1 h with heq | h
    · cases heq
      exact if_pos rfl
    · rw [if_neg (Std.ne_of_lt (hbehind _ h)), ih htail h]

theorem orderedEntries_of_mem {t : Table} (h : ∀ entry ∈ t, entry.2.Ordered) :
    Value.OrderedEntries t := by
  induction t with
  | nil => trivial
  | cons entry rest ih =>
    rw [Value.OrderedEntries]
    refine ⟨h entry List.mem_cons_self, ih ?_⟩
    intro e he
    exact h e (List.mem_cons_of_mem _ he)

/-- A table is ordered if its keys increase and the value under every key is ordered. -/
theorem ordered_of_get? {t : Table} (ht : t.Pairwise (·.1 < ·.1))
    (h : ∀ key v, t.get? key = some v → v.Ordered) : t.Ordered := by
  rw [Table.Ordered, Value.Ordered]
  refine ⟨ht, orderedEntries_of_mem ?_⟩
  rintro ⟨key, v⟩ hentry
  exact h key v (get?_of_mem ht hentry)

end LayeredConfig.Table
