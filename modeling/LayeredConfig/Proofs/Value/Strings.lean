/-
  LayeredConfig/Proofs/Value/Strings.lean
  =======================================
  **The strings in a value.**

  Only strings hold tokens, so what a read does with a value depends on the
  strings in it (`Value.strings`), wherever they stand.
-/
import LayeredConfig.Proofs.Outcome
import LayeredConfig.Value.Table
import LayeredConfig.Value.Traverse

namespace LayeredConfig

mutual

/-- The strings in a value, at every depth; keys do not count. -/
def Value.strings : Value → List String
  | .string s => [s]
  | .array items => Value.stringsOfItems items
  | .table entries => Value.stringsOfEntries entries
  | .integer _ | .float _ | .boolean _ | .datetime _ => []

def Value.stringsOfItems : List Value → List String
  | [] => []
  | v :: rest => v.strings ++ Value.stringsOfItems rest

def Value.stringsOfEntries : List (String × Value) → List String
  | [] => []
  | (_, v) :: rest => v.strings ++ Value.stringsOfEntries rest

end

def Table.strings (t : Table) : List String := Value.stringsOfEntries t

theorem Value.mem_stringsOfItems {items : List Value} {s : String} :
    s ∈ Value.stringsOfItems items ↔ ∃ v ∈ items, s ∈ v.strings := by
  induction items with
  | nil => exact iff_of_false nofun nofun
  | cons v rest ih => simp [Value.stringsOfItems, ih]

theorem Table.strings_of_get? {t : Table} {key : String} {v : Value} (h : t.get? key = some v) :
    v.strings ⊆ Table.strings t := by
  induction t with
  | nil => cases h
  | cons entry rest ih =>
    obtain ⟨k, w⟩ := entry
    rw [Table.get?_cons] at h
    by_cases hk : k = key
    · rw [if_pos hk] at h
      obtain rfl := Option.some.inj h
      exact List.subset_append_left _ _
    · rw [if_neg hk] at h
      exact List.subset_append_of_subset_right _ (ih h)

/-! ### Strings of a changed value -/

section Traverse

variable {change : String → Outcome Value} {P : String → Prop}

mutual

/-- What holds of the strings that are put in the place of each string holds of all strings in the
    changed value. -/
theorem Value.forall_strings_traverse {v w : Value} (h : (v.traverse change).result = .ok w)
    (hchange : ∀ s ∈ v.strings, ∀ u, (change s).result = .ok u → ∀ x ∈ u.strings, P x) :
    ∀ x ∈ w.strings, P x := by
  cases v with
  | string s => exact hchange s List.mem_cons_self w h
  | array items =>
    obtain ⟨out, hout, h⟩ := Outcome.bind_result_eq_ok.1 h
    cases h
    exact Value.forall_strings_traverseItems hout hchange
  | table entries =>
    obtain ⟨out, hout, h⟩ := Outcome.bind_result_eq_ok.1 h
    cases h
    exact Value.forall_strings_traverseEntries hout hchange
  | integer i =>
    cases h
    exact nofun
  | float x =>
    cases h
    exact nofun
  | boolean b =>
    cases h
    exact nofun
  | datetime d =>
    cases h
    exact nofun

theorem Value.forall_strings_traverseItems {items out : List Value}
    (h : (Value.traverseItems change items).result = .ok out)
    (hchange : ∀ s ∈ Value.stringsOfItems items, ∀ u, (change s).result = .ok u →
      ∀ x ∈ u.strings, P x) : ∀ x ∈ Value.stringsOfItems out, P x := by
  cases items with
  | nil =>
    cases h
    exact nofun
  | cons v rest =>
    obtain ⟨w, hw, h⟩ := Outcome.bind_result_eq_ok.1 h
    obtain ⟨out', hout, h⟩ := Outcome.bind_result_eq_ok.1 h
    cases h
    intro x hx
    rcases List.mem_append.1 hx with hx | hx
    · exact Value.forall_strings_traverse hw
        (fun s hs => hchange s (List.mem_append_left _ hs)) x hx
    · exact Value.forall_strings_traverseItems hout
        (fun s hs => hchange s (List.mem_append_right _ hs)) x hx

theorem Value.forall_strings_traverseEntries {entries out : List (String × Value)}
    (h : (Value.traverseEntries change entries).result = .ok out)
    (hchange : ∀ s ∈ Value.stringsOfEntries entries, ∀ u, (change s).result = .ok u →
      ∀ x ∈ u.strings, P x) : ∀ x ∈ Value.stringsOfEntries out, P x := by
  cases entries with
  | nil =>
    cases h
    exact nofun
  | cons entry rest =>
    obtain ⟨w, hw, h⟩ := Outcome.bind_result_eq_ok.1 h
    obtain ⟨out', hout, h⟩ := Outcome.bind_result_eq_ok.1 h
    cases h
    intro x hx
    rcases List.mem_append.1 hx with hx | hx
    · exact Value.forall_strings_traverse hw
        (fun s hs => hchange s (List.mem_append_left _ hs)) x hx
    · exact Value.forall_strings_traverseEntries hout
        (fun s hs => hchange s (List.mem_append_right _ hs)) x hx

end

end Traverse

/-! ### Other strings in their place -/

mutual

/-- The value with another string in the place of each one in it; keys stay. -/
def Value.mapStrings (f : String → String) : Value → Value
  | .string s => .string (f s)
  | .array items => .array (Value.mapStringsOfItems f items)
  | .table entries => .table (Value.mapStringsOfEntries f entries)
  | .integer i => .integer i
  | .float x => .float x
  | .boolean b => .boolean b
  | .datetime d => .datetime d

def Value.mapStringsOfItems (f : String → String) : List Value → List Value
  | [] => []
  | v :: rest => v.mapStrings f :: Value.mapStringsOfItems f rest

def Value.mapStringsOfEntries (f : String → String) :
    List (String × Value) → List (String × Value)
  | [] => []
  | (key, v) :: rest => (key, v.mapStrings f) :: Value.mapStringsOfEntries f rest

end

def Table.mapStrings (f : String → String) (t : Table) : Table := Value.mapStringsOfEntries f t

section MapStrings

variable {change : String → Outcome Value} {f : String → String}

mutual

/-- If every string gives way to a string, so does the value to one with other strings. -/
theorem Value.traverse_eq_mapStrings {v : Value}
    (h : ∀ s ∈ v.strings, (change s).result = .ok (.string (f s))) :
    (v.traverse change).result = .ok (v.mapStrings f) := by
  cases v with
  | string s => exact h s List.mem_cons_self
  | array items =>
    exact Outcome.bind_result_eq_ok.2 ⟨_, Value.traverseItems_eq_mapStrings h, rfl⟩
  | table entries =>
    exact Outcome.bind_result_eq_ok.2 ⟨_, Value.traverseEntries_eq_mapStrings h, rfl⟩
  | integer i => rfl
  | float x => rfl
  | boolean b => rfl
  | datetime d => rfl

theorem Value.traverseItems_eq_mapStrings {items : List Value}
    (h : ∀ s ∈ Value.stringsOfItems items, (change s).result = .ok (.string (f s))) :
    (Value.traverseItems change items).result = .ok (Value.mapStringsOfItems f items) := by
  cases items with
  | nil => rfl
  | cons v rest =>
    have hv := Value.traverse_eq_mapStrings fun s hs => h s (List.mem_append_left _ hs)
    have hrest := Value.traverseItems_eq_mapStrings fun s hs => h s (List.mem_append_right _ hs)
    exact Outcome.bind_result_eq_ok.2 ⟨_, hv, Outcome.bind_result_eq_ok.2 ⟨_, hrest, rfl⟩⟩

theorem Value.traverseEntries_eq_mapStrings {entries : List (String × Value)}
    (h : ∀ s ∈ Value.stringsOfEntries entries, (change s).result = .ok (.string (f s))) :
    (Value.traverseEntries change entries).result = .ok (Value.mapStringsOfEntries f entries) := by
  cases entries with
  | nil => rfl
  | cons entry rest =>
    have hv := Value.traverse_eq_mapStrings fun s hs => h s (List.mem_append_left _ hs)
    have hrest := Value.traverseEntries_eq_mapStrings fun s hs => h s (List.mem_append_right _ hs)
    exact Outcome.bind_result_eq_ok.2 ⟨_, hv, Outcome.bind_result_eq_ok.2 ⟨_, hrest, rfl⟩⟩

end

mutual

/-- A change that keeps the strings of a value keeps the value. -/
theorem Value.mapStrings_eq_self {v : Value} (h : ∀ s ∈ v.strings, f s = s) :
    v.mapStrings f = v := by
  cases v with
  | string s => exact congrArg Value.string (h s List.mem_cons_self)
  | array items => exact congrArg Value.array (Value.mapStringsOfItems_eq_self h)
  | table entries => exact congrArg Value.table (Value.mapStringsOfEntries_eq_self h)
  | _ => rfl

theorem Value.mapStringsOfItems_eq_self {items : List Value}
    (h : ∀ s ∈ Value.stringsOfItems items, f s = s) : Value.mapStringsOfItems f items = items := by
  cases items with
  | nil => rfl
  | cons v rest =>
    have hv := Value.mapStrings_eq_self fun s hs => h s (List.mem_append_left _ hs)
    have hrest := Value.mapStringsOfItems_eq_self fun s hs => h s (List.mem_append_right _ hs)
    rw [Value.mapStringsOfItems, hv, hrest]

theorem Value.mapStringsOfEntries_eq_self {entries : List (String × Value)}
    (h : ∀ s ∈ Value.stringsOfEntries entries, f s = s) :
    Value.mapStringsOfEntries f entries = entries := by
  cases entries with
  | nil => rfl
  | cons entry rest =>
    have hv := Value.mapStrings_eq_self fun s hs => h s (List.mem_append_left _ hs)
    have hrest := Value.mapStringsOfEntries_eq_self fun s hs => h s (List.mem_append_right _ hs)
    rw [Value.mapStringsOfEntries, hv, hrest]

end

/-- What holds of the strings that are put in holds of all strings. -/
theorem Value.forall_strings_mapStrings {P : String → Prop} {v : Value}
    (h : ∀ s ∈ v.strings, P (f s)) : ∀ s ∈ (v.mapStrings f).strings, P s := by
  have hv : (v.traverse fun s => (pure (.string (f s)) : Outcome Value)).result =
      .ok (v.mapStrings f) := Value.traverse_eq_mapStrings fun _ _ => rfl
  refine Value.forall_strings_traverse hv ?_
  intro s hs u hu x hx
  cases hu
  obtain rfl := List.mem_singleton.1 hx
  exact h s hs

/-- A change that comes to rest changes a value once. -/
theorem Value.mapStrings_mapStrings (hf : ∀ s, f (f s) = f s) (v : Value) :
    (v.mapStrings f).mapStrings f = v.mapStrings f :=
  Value.mapStrings_eq_self (Value.forall_strings_mapStrings fun s _ => hf s)

end MapStrings

end LayeredConfig
