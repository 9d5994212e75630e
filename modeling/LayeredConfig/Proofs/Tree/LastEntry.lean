/-
  LayeredConfig/Proofs/Tree/LastEntry.lean
  ========================================
  **What a list of entries spells.**

  Entries are put into a table one after the other, and they overwrite each other
  in both ways: a value hides all that was below its place, and a deeper entry
  turns what stands on its way into tables.  At a path the last entry counts whose
  own path leads to it or to something above it.  The entries behind that one
  cannot change what is there, except that a longer one makes it a table.

  `FollowsLast` says this for one path, and it holds of the tables that dotted keys
  and the variables of the process spell (`last_entry_decides`).
-/
import LayeredConfig.Proofs.Value.Overlay
import LayeredConfig.Tree.Source

namespace LayeredConfig

namespace Table

/-! ### One entry -/

theorem insertAt_cons_of_ne_nil (t : Table) (key : String) {rest : List String} (h : rest ≠ [])
    (v : Value) :
    t.insertAt (key :: rest) v = t.insert key (.table (insertAt (t.subtable key) rest v)) := by
  cases rest with
  | nil => exact absurd rfl h
  | cons next rest => rw [insertAt]

theorem at?_subtable (t : Table) (key : String) {path : List String} (h : path ≠ []) :
    (t.subtable key).at? path = t.at? (key :: path) := by
  rw [at?_cons, subtable]
  cases path with
  | nil => exact absurd rfl h
  | cons next rest =>
    rcases Value.no_table_or (t.get? key) with hnone | ⟨u, hu⟩
    · rw [Value.bind_at?_of_no_table hnone]
      split
      next u hu => exact absurd hu (hnone u)
      next => rfl
    · rw [hu]
      rfl

/-- What an entry puts somewhere is found there, and below that what the value holds. -/
theorem at?_insertAt_append (t : Table) {way : List String} (h : way ≠ []) (v : Value)
    (rest : List String) : (t.insertAt way v).at? (way ++ rest) = v.at? rest := by
  induction way generalizing t with
  | nil => exact absurd rfl h
  | cons key way ih =>
    rw [List.cons_append, at?_cons]
    by_cases hway : way = []
    · subst hway
      simp [insertAt, get?_insert]
    · rw [insertAt_cons_of_ne_nil t key hway, get?_insert, if_pos rfl, Option.bind_some]
      exact ih (t.subtable key) hway

/-- On the way to the place of an entry stand tables, whatever stood there before. -/
theorem exists_table_insertAt (t : Table) {path way : List String} (h : path <+: way)
    (hne : path ≠ way) (v : Value) : ∃ u, (t.insertAt way v).at? path = some (.table u) := by
  induction path generalizing t way with
  | nil => exact ⟨_, rfl⟩
  | cons key path ih =>
    obtain ⟨rest, rfl⟩ := h
    have hrest : path ++ rest ≠ [] := by
      intro hnil
      obtain ⟨rfl, rfl⟩ := List.append_eq_nil_iff.1 hnil
      exact hne rfl
    have hne' : path ≠ path ++ rest := by
      intro heq
      exact hne (congrArg (key :: ·) heq)
    rw [List.cons_append, insertAt_cons_of_ne_nil t key hrest, at?_cons, get?_insert, if_pos rfl,
      Option.bind_some]
    exact ih (t.subtable key) (List.prefix_append path rest) hne'

/-- An entry changes nothing at a path that neither leads to its place nor on from there. -/
theorem at?_insertAt_of_apart (t : Table) {way path : List String} (h : ¬ way <+: path)
    (h' : ¬ path <+: way) (v : Value) : (t.insertAt way v).at? path = t.at? path := by
  induction way generalizing t path with
  | nil => exact absurd List.nil_prefix h
  | cons key way ih =>
    cases path with
    | nil => exact absurd List.nil_prefix h'
    | cons key' path =>
      by_cases hkey : key = key'
      · subst hkey
        rw [List.cons_prefix_cons] at h h'
        have hway : ¬ way <+: path := fun hp => h ⟨rfl, hp⟩
        have hpath : ¬ path <+: way := fun hp => h' ⟨rfl, hp⟩
        have hne : way ≠ [] := by
          rintro rfl
          exact hway List.nil_prefix
        have hne' : path ≠ [] := by
          rintro rfl
          exact hpath List.nil_prefix
        rw [insertAt_cons_of_ne_nil t key hne, at?_cons, get?_insert, if_pos rfl, Option.bind_some,
          ← at?_subtable t key hne']
        exact ih (t.subtable key) hway hpath
      · rw [at?_cons, at?_cons]
        cases way with
        | nil => rw [insertAt, get?_insert, if_neg hkey]
        | cons next way => rw [insertAt, get?_insert, if_neg hkey]

/-- There is a table at the end of a path. -/
def HasTable (t : Table) (path : List String) : Prop := ∃ u, t.at? path = some (.table u)

section Behind

variable {way path : List String} (h : ¬ way <+: path) (v : Value)
include h

/-- An entry that is not on the way to a path leaves a leaf there, unless it leads beyond. -/
theorem at?_insertAt_eq_leaf_iff (t : Table) {leaf : Value} (hleaf : leaf.IsLeaf) :
    (t.insertAt way v).at? path = some leaf ↔ t.at? path = some leaf ∧ ¬ path <+: way := by
  by_cases hbeyond : path <+: way
  · have hne : path ≠ way := fun heq => h (heq ▸ List.prefix_refl path)
    obtain ⟨u, hu⟩ := exists_table_insertAt t hbeyond hne v
    constructor
    · intro hv
      exact absurd (Option.some.inj (hv.symm.trans hu)) (hleaf u)
    · exact fun hv => absurd hbeyond hv.2
  · rw [at?_insertAt_of_apart t h hbeyond]
    exact (and_iff_left hbeyond).symm

theorem hasTable_insertAt_iff (t : Table) :
    (t.insertAt way v).HasTable path ↔ t.HasTable path ∨ path <+: way := by
  by_cases hbeyond : path <+: way
  · have hne : path ≠ way := fun heq => h (heq ▸ List.prefix_refl path)
    exact iff_of_true (exists_table_insertAt t hbeyond hne v) (.inr hbeyond)
  · rw [HasTable, at?_insertAt_of_apart t h hbeyond]
    exact (or_iff_left hbeyond).symm

end Behind

/-! ### One entry after the other -/

/-- The table with a value put at the end of each path in turn. -/
def putAll (t : Table) (entries : List (List String × Value)) : Table :=
  entries.foldl (fun t (path, v) => t.insertAt path v) t

theorem ofPaths_eq_putAll (entries : List (List String × Value)) :
    ofPaths entries = putAll [] entries := rfl

theorem putAll_cons (t : Table) (entry : List String × Value)
    (entries : List (List String × Value)) :
    t.putAll (entry :: entries) = (t.insertAt entry.1 entry.2).putAll entries := rfl

theorem putAll_append (t : Table) (earlier later : List (List String × Value)) :
    t.putAll (earlier ++ later) = (t.putAll earlier).putAll later := List.foldl_append

def Extended (entries : List (List String × Value)) (path : List String) : Prop :=
  ∃ entry ∈ entries, path <+: entry.1 ∧ path ≠ entry.1

theorem extended_cons (entry : List String × Value) (entries : List (List String × Value))
    (path : List String) :
    Extended (entry :: entries) path ↔
      (path <+: entry.1 ∧ path ≠ entry.1) ∨ Extended entries path := by
  simp [Extended]

section Behind

variable {later : List (List String × Value)} {path : List String}
  (h : ∀ entry ∈ later, ¬ entry.1 <+: path)
include h

theorem at?_putAll_eq_leaf_iff (t : Table) {leaf : Value} (hleaf : leaf.IsLeaf) :
    (t.putAll later).at? path = some leaf ↔ t.at? path = some leaf ∧ ¬ Extended later path := by
  induction later generalizing t with
  | nil => simp [putAll, Extended]
  | cons entry later ih =>
    obtain ⟨hentry, hlater⟩ := List.forall_mem_cons.1 h
    have hne : path ≠ entry.1 := fun heq => hentry (heq ▸ List.prefix_refl path)
    rw [putAll_cons, ih hlater, at?_insertAt_eq_leaf_iff hentry entry.2 t hleaf, extended_cons,
      and_iff_left hne, not_or, and_assoc]

theorem hasTable_putAll_iff (t : Table) :
    (t.putAll later).HasTable path ↔ t.HasTable path ∨ Extended later path := by
  induction later generalizing t with
  | nil => simp [putAll, Extended]
  | cons entry later ih =>
    obtain ⟨hentry, hlater⟩ := List.forall_mem_cons.1 h
    have hne : path ≠ entry.1 := fun heq => hentry (heq ▸ List.prefix_refl path)
    rw [putAll_cons, ih hlater, hasTable_insertAt_iff hentry entry.2 t, extended_cons,
      and_iff_left hne, or_assoc]

end Behind

/-! ### The last entry that leads to a path -/

/-- `value` is what the last entry holds whose path is `path` or a part of the way to it, `rest` the
    rest of the way, and `later` are the entries behind it. -/
structure LastEntry (entries : List (List String × Value)) (path : List String) (value : Value)
    (rest : List String) (later : List (List String × Value)) : Prop where
  split : ∃ earlier way, entries = earlier ++ (way, value) :: later ∧ way ++ rest = path
  last : ∀ entry ∈ later, ¬ entry.1 <+: path

theorem exists_lastEntry (entries : List (List String × Value)) (path : List String) :
    (∃ value rest later, LastEntry entries path value rest later) ∨
      ∀ entry ∈ entries, ¬ entry.1 <+: path := by
  induction entries with
  | nil => exact .inr nofun
  | cons entry entries ih =>
    rcases ih with ⟨value, rest, later, ⟨earlier, way, rfl, hway⟩, hlast⟩ | hnone
    · exact .inl ⟨value, rest, later, ⟨entry :: earlier, way, rfl, hway⟩, hlast⟩
    · by_cases hentry : entry.1 <+: path
      · obtain ⟨rest, hrest⟩ := hentry
        exact .inl ⟨entry.2, rest, entries, ⟨[], entry.1, rfl, hrest⟩, hnone⟩
      · exact .inr (List.forall_mem_cons.2 ⟨hentry, hnone⟩)

/-- What a table holds at a path that is spelled by entries: what the last entry that leads there
    holds, if no later one leads beyond. -/
structure FollowsLast (t : Table) (entries : List (List String × Value)) (path : List String) :
    Prop where
  leaf : ∀ v : Value, v.IsLeaf →
    (t.at? path = some v ↔
      ∃ value rest later, LastEntry entries path value rest later ∧
        value.at? rest = some v ∧ ¬ Extended later path)
  table : t.HasTable path ↔
    (∃ value rest later, LastEntry entries path value rest later ∧
      ((∃ u, value.at? rest = some (.table u)) ∨ Extended later path)) ∨
    ((∀ entry ∈ entries, ¬ entry.1 <+: path) ∧ Extended entries path)

section Spelled

variable {entries : List (List String × Value)} (hne : ∀ entry ∈ entries, entry.1 ≠ [])
  {path : List String}
include hne

/-- At the path of the last entry, or below it, the entries before it do not count. -/
theorem LastEntry.ofPaths_eq {value : Value} {rest : List String}
    {later : List (List String × Value)} (h : LastEntry entries path value rest later) :
    ∃ t : Table, ofPaths entries = t.putAll later ∧ t.at? path = value.at? rest := by
  obtain ⟨⟨earlier, way, rfl, rfl⟩, -⟩ := h
  have hway : way ≠ [] := hne _ (List.mem_append_right _ List.mem_cons_self)
  refine ⟨(putAll [] earlier).insertAt way value, ?_, at?_insertAt_append _ hway value rest⟩
  rw [ofPaths_eq_putAll, putAll_append, putAll_cons]

theorem followsLast_ofPaths (hpath : path ≠ []) : (ofPaths entries).FollowsLast entries path := by
  have hempty : Table.at? [] path = none := by
    cases path with
    | nil => exact absurd rfl hpath
    | cons key rest => rw [at?_cons, get?_nil, Option.bind_none]
  refine ⟨fun v hv => ⟨fun hat => ?_, ?_⟩, ⟨fun hat => ?_, ?_⟩⟩
  · rcases exists_lastEntry entries path with ⟨value, rest, later, h⟩ | hnone
    · obtain ⟨t, ht, hvalue⟩ := h.ofPaths_eq hne
      rw [ht, at?_putAll_eq_leaf_iff h.last t hv, hvalue] at hat
      exact ⟨value, rest, later, h, hat⟩
    · rw [ofPaths_eq_putAll, at?_putAll_eq_leaf_iff hnone [] hv, hempty] at hat
      cases hat.1
  · rintro ⟨value, rest, later, h, hat⟩
    obtain ⟨t, ht, hvalue⟩ := h.ofPaths_eq hne
    rw [ht, at?_putAll_eq_leaf_iff h.last t hv, hvalue]
    exact hat
  · rcases exists_lastEntry entries path with ⟨value, rest, later, h⟩ | hnone
    · obtain ⟨t, ht, hvalue⟩ := h.ofPaths_eq hne
      rw [ht, hasTable_putAll_iff h.last, HasTable, hvalue] at hat
      exact .inl ⟨value, rest, later, h, hat⟩
    · rw [ofPaths_eq_putAll, hasTable_putAll_iff hnone, HasTable, hempty] at hat
      exact .inr ⟨hnone, hat.resolve_left nofun⟩
  · rintro (⟨value, rest, later, h, hat⟩ | ⟨hnone, hat⟩)
    · obtain ⟨t, ht, hvalue⟩ := h.ofPaths_eq hne
      rw [ht, hasTable_putAll_iff h.last, HasTable, hvalue]
      exact hat
    · rw [ofPaths_eq_putAll, hasTable_putAll_iff hnone]
      exact .inr hat

end Spelled

/-! ### Dotted keys and variables -/

/-- The entries that dotted keys spell; an empty key spells none. -/
def dottedEntries (pairs : List (String × Value)) : List (List String × Value) :=
  (pairs.filter (·.1 ≠ "")).map fun (key, v) => ((KeyPath.parse key).segments, v)

def variableEntries (start : String) (vars : List (String × String)) :
    List (List String × Value) :=
  vars.filterMap fun (name, text) =>
    (variablePath? start name).map fun path => (path, Value.ofText text)

theorem segments_parse_ne_nil {key : String} (h : key ≠ "") :
    (KeyPath.parse key).segments ≠ [] := by
  rw [KeyPath.parse, if_neg h]
  exact fun hnil => Text.split_ne_nil '.' key.toList (List.map_eq_nil_iff.1 hnil)

theorem dottedEntries_ne_nil (pairs : List (String × Value)) :
    ∀ entry ∈ dottedEntries pairs, entry.1 ≠ [] := by
  intro entry hentry
  obtain ⟨⟨key, v⟩, hpair, rfl⟩ := List.mem_map.1 hentry
  exact segments_parse_ne_nil (of_decide_eq_true (List.mem_filter.1 hpair).2)

theorem putAll_dotted (t : Table) (pairs : List (String × Value)) :
    t.putAll (pairs.map fun (key, v) => ((KeyPath.parse key).segments, v)) =
      t.putAll (dottedEntries pairs) := by
  induction pairs generalizing t with
  | nil => rfl
  | cons pair pairs ih =>
    obtain ⟨key, v⟩ := pair
    rw [List.map_cons, putAll_cons, ih]
    by_cases hkey : key = ""
    · subst hkey
      -- the path of the empty key is the root, where nothing is put
      simp [dottedEntries, KeyPath.parse, KeyPath.root, insertAt]
    · simp [dottedEntries, hkey, putAll_cons]

theorem variableEntries_ne_nil (start : String) (vars : List (String × String)) :
    ∀ entry ∈ variableEntries start vars, entry.1 ≠ [] := by
  intro entry hentry
  obtain ⟨⟨name, text⟩, -, hsome⟩ := List.mem_filterMap.1 hentry
  obtain ⟨path, hpath, rfl⟩ := Option.map_eq_some_iff.1 hsome
  rw [variablePath?] at hpath
  split at hpath
  · cases hpath
  · cases hpath
  · next rest _ _ =>
      obtain rfl := Option.some.inj hpath
      exact fun hnil => Text.splitDouble_ne_nil '_' rest (List.map_eq_nil_iff.1 hnil)

/-- **The last writer wins.**  At every path below the root a table that is put together from
    entries, from dotted keys or from variables holds what the last entry that leads there has. -/
theorem last_entry_decides {path : List String} (hpath : path ≠ []) :
    (∀ entries : List (List String × Value), (∀ entry ∈ entries, entry.1 ≠ []) →
      (ofPaths entries).FollowsLast entries path) ∧
    (∀ pairs, (ofPairs pairs).FollowsLast (dottedEntries pairs) path) ∧
    ∀ start vars, (ofVariables start vars).FollowsLast (variableEntries start vars) path := by
  refine ⟨?_, ?_, ?_⟩
  · exact fun entries hne => followsLast_ofPaths hne hpath
  · intro pairs
    rw [ofPairs, ofPaths_eq_putAll, putAll_dotted]
    exact followsLast_ofPaths (dottedEntries_ne_nil pairs) hpath
  · exact fun start vars => followsLast_ofPaths (variableEntries_ne_nil start vars) hpath

/-! ### A value, a deeper one, and a deeper one still -/

namespace Overwritten

def entries : List (List String × Value) :=
  [(["a"], .integer 1), (["a", "b"], .table [("c", .integer 2), ("d", .integer 3)]),
    (["a", "b", "d", "e"], .integer 4)]

theorem entries_ne_nil : ∀ entry ∈ entries, entry.1 ≠ [] := by decide

theorem lastEntry_c : LastEntry entries ["a", "b", "c"] (.table [("c", .integer 2),
    ("d", .integer 3)]) ["c"] [(["a", "b", "d", "e"], .integer 4)] :=
  ⟨⟨[(["a"], .integer 1)], ["a", "b"], rfl, rfl⟩, by decide⟩

theorem lastEntry_d : LastEntry entries ["a", "b", "d"] (.table [("c", .integer 2),
    ("d", .integer 3)]) ["d"] [(["a", "b", "d", "e"], .integer 4)] :=
  ⟨⟨[(["a"], .integer 1)], ["a", "b"], rfl, rfl⟩, by decide⟩

/-- One value of the inner table stays, the other one makes way for a table. -/
theorem inner_table_overwritten :
    (∀ entry ∈ entries, entry.1 ≠ []) ∧ (["a", "b", "c"] : List String) ≠ [] ∧
      (["a", "b", "d"] : List String) ≠ [] ∧
      (ofPaths entries).at? ["a", "b", "c"] = some (.integer 2) ∧
      (ofPaths entries).HasTable ["a", "b", "d"] := by
  have hc : (["a", "b", "c"] : List String) ≠ [] := by decide
  have hd : (["a", "b", "d"] : List String) ≠ [] := by decide
  refine ⟨entries_ne_nil, hc, hd, ?_, ?_⟩
  · have hfollows := (last_entry_decides hc).1 entries entries_ne_nil
    refine (hfollows.leaf _ (Value.isLeaf_integer 2)).2 ⟨_, _, _, lastEntry_c, by cbv, ?_⟩
    simp [Extended]
  · have hfollows := (last_entry_decides hd).1 entries entries_ne_nil
    refine hfollows.table.2 (.inl ⟨_, _, _, lastEntry_d, .inr ?_⟩)
    simp [Extended]

end Overwritten

end Table

end LayeredConfig
