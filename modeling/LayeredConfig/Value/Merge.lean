/-
  LayeredConfig/Value/Merge.lean
  ==============================
  **Laying one table over another.**

  The entries of the upper table are put on the lower one in turn.  Where both
  hold a table under a key the two are merged in the same way; otherwise the
  upper value replaces the lower one.
-/
import LayeredConfig.Value.Table

namespace LayeredConfig

mutual

/-- The upper table laid over the lower one. -/
def Table.deepMerge : (lower upper : Table) → Table
  | lower, [] => lower
  | lower, (key, value) :: rest =>
    Table.deepMerge (lower.insert key (Value.over (lower.get? key) value)) rest

/-- What stands under a key if the upper table holds `upper` there. -/
def Value.over : (lower : Option Value) → (upper : Value) → Value
  | some (.table lower), .table upper => .table (Table.deepMerge lower upper)
  | _, upper => upper

end

/-! ### Laws -/

namespace Table

@[simp] theorem deepMerge_nil (lower : Table) : deepMerge lower [] = lower := by
  rw [deepMerge]

/-- A merge of tables with increasing keys is a merge under every key. -/
theorem get?_deepMerge (lower : Table) {upper : Table} (h : upper.Pairwise (·.1 < ·.1))
    (key : String) :
    (deepMerge lower upper).get? key =
      match upper.get? key with
      | some v => some (Value.over (lower.get? key) v)
      | none => lower.get? key := by
  induction upper generalizing lower with
  | nil => rw [deepMerge_nil, get?_nil]
  | cons entry rest ih =>
    obtain ⟨k, v⟩ := entry
    have hr := List.pairwise_cons.1 h
    rw [deepMerge, ih _ hr.2, get?_cons, get?_insert]
    by_cases hk : k = key
    · subst hk
      have hn : Table.get? rest k = none :=
        get?_eq_none fun e he hek => String.lt_irrefl k (hek ▸ hr.1 e he)
      simp [hn]
    · simp only [if_neg hk]

/-- A merge keeps the keys in strictly increasing order. -/
theorem pairwise_deepMerge {lower : Table} (h : lower.Pairwise (·.1 < ·.1)) (upper : Table) :
    (deepMerge lower upper).Pairwise (·.1 < ·.1) := by
  induction upper generalizing lower with
  | nil => rwa [deepMerge_nil]
  | cons entry rest ih =>
    rw [deepMerge]
    exact ih (pairwise_insert h _ _)

end Table

end LayeredConfig
