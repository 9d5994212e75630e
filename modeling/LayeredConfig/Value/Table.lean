/-
  LayeredConfig/Value/Table.lean
  ==============================
  **Tables as finite maps.**

  Look-up, insertion and removal by key, and the same along a path of keys.
  Insertion keeps the order of the keys.  A path leads through tables only:
  below any other value there is nothing.
-/
import LayeredConfig.KeyPath
import LayeredConfig.Value.Basic

namespace LayeredConfig

namespace Table

/-! ### By key -/

def get? : Table → String → Option Value
  | [], _ => none
  | (k, v) :: rest, key => if k = key then some v else get? rest key

/-- The table with a value under a key, in place of what was there. -/
def insert : Table → String → Value → Table
  | [], key, value => [(key, value)]
  | (k, v) :: rest, key, value =>
    if key = k then (key, value) :: rest
    else if key < k then (key, value) :: (k, v) :: rest
    else (k, v) :: insert rest key value

/-- The table of a list of entries; of two under one key the later one stays. -/
def ofList (entries : List (String × Value)) : Table :=
  entries.foldl (fun t (key, value) => t.insert key value) []

def subtable (t : Table) (key : String) : Table :=
  match t.get? key with
  | some (.table u) => u
  | _ => []

/-! ### By path -/

/-- Puts a value at the end of a path, making way for it: what is not a table on the way there is
    replaced by one.  The empty path leads nowhere. -/
def insertAt : Table → List String → Value → Table
  | t, [], _ => t
  | t, [key], value => t.insert key value
  | t, key :: next :: rest, value =>
    t.insert key (.table (insertAt (t.subtable key) (next :: rest) value))

def nestUnder (path : List String) (t : Table) : Table :=
  path.foldr (fun key inner => [(key, .table inner)]) t

end Table

def Value.at? : Value → List String → Option Value
  | v, [] => some v
  | .table t, key :: rest =>
    match Table.get? t key with
    | some v => v.at? rest
    | none => none
  | _, _ :: _ => none

/-- What a table holds at the end of a path; at the end of the empty path, itself. -/
def Table.at? (t : Table) (path : List String) : Option Value := (Value.table t).at? path

/-! ### Laws -/

namespace Table

@[simp] theorem get?_nil (key : String) : get? [] key = none := rfl

theorem get?_cons (k : String) (v : Value) (t : Table) (key : String) :
    get? ((k, v) :: t) key = if k = key then some v else t.get? key := rfl

/-- Insertion changes what is under its key and nothing else. -/
theorem get?_insert (t : Table) (key : String) (value : Value) (other : String) :
    (t.insert key value).get? other = if key = other then some value else t.get? other := by
  induction t with
  | nil => rfl
  | cons entry rest ih =>
    obtain ⟨k, v⟩ := entry
    simp only [insert]
    split
    next h => subst h; by_cases g : key = other <;> simp [get?, g]
    next h =>
      split
      next => simp only [get?_cons]
      next =>
        simp only [get?_cons, ih]
        by_cases g : k = other
        · subst g; simp [h]
        · simp [g]

/-- There is nothing under a key that no entry has. -/
theorem get?_eq_none {t : Table} {key : String} (h : ∀ entry ∈ t, entry.1 ≠ key) :
    t.get? key = none := by
  induction t with
  | nil => rfl
  | cons entry rest ih =>
    rw [get?_cons, if_neg (h entry List.mem_cons_self)]
    exact ih fun e he => h e (List.mem_cons_of_mem _ he)

theorem eq_or_mem_of_mem_insert {t : Table} {key : String} {value : Value} {e : String × Value}
    (h : e ∈ t.insert key value) : e = (key, value) ∨ e ∈ t := by
  induction t with
  | nil => exact .inl (List.mem_singleton.1 h)
  | cons entry rest ih =>
    simp only [insert] at h
    split at h
    · rcases List.mem_cons.1 h with h | h
      · exact .inl h
      · exact .inr (List.mem_cons_of_mem _ h)
    · split at h
      · exact List.mem_cons.1 h
      · rcases List.mem_cons.1 h with h | h
        · exact .inr (h ▸ List.mem_cons_self)
        · exact (ih h).imp_right (List.mem_cons_of_mem _)

/-- Insertion keeps the keys in strictly increasing order. -/
theorem pairwise_insert {t : Table} (h : t.Pairwise (·.1 < ·.1)) (key : String) (value : Value) :
    (t.insert key value).Pairwise (·.1 < ·.1) := by
  induction t with
  | nil => exact List.pairwise_singleton _ _
  | cons entry rest ih =>
    have hr := List.pairwise_cons.1 h
    simp only [insert]
    split
    next hk => exact List.pairwise_cons.2 ⟨fun e he => hk ▸ hr.1 e he, hr.2⟩
    next hk =>
      split
      next hl =>
        refine List.pairwise_cons.2 ⟨fun e he => ?_, h⟩
        rcases List.mem_cons.1 he with rfl | he
        · exact hl
        · exact String.lt_trans hl (hr.1 e he)
      next hl =>
        refine List.pairwise_cons.2 ⟨fun e he => ?_, ih hr.2⟩
        rcases eq_or_mem_of_mem_insert he with rfl | he
        · exact Std.lt_of_le_of_ne (String.not_lt.1 hl) (Ne.symm hk)
        · exact hr.1 e he

end Table

end LayeredConfig
