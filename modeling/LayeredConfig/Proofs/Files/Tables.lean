/-
  LayeredConfig/Proofs/Files/Tables.lean
  ======================================
  **What loaded tables can hold.**

  Files can be named by infinitely many paths, but there are finitely many texts
  on a disk, and so finitely many strings that the three formats can find there
  (`Loader.texts`).  A parser of the host may find a table of its own at every
  path.  Whatever a loader loads has its strings from these two sources, also
  where an overlay lies over a file (`Loader.strings_of_loadFile`).
-/
import LayeredConfig.Files.Loader
import LayeredConfig.Proofs.Value.Overlay
import LayeredConfig.Proofs.Value.Strings

namespace LayeredConfig

/-! ### Texts on a disk -/

mutual

def Node.texts : Node → List String
  | .file text => text.toList
  | .directory entries => Disk.texts entries

def Disk.texts : List (String × Node) → List String
  | [] => []
  | (_, node) :: rest => node.texts ++ Disk.texts rest

end

namespace Disk

theorem texts_of_lookup {disk : Disk} {name : String} {node : Node}
    (h : disk.lookup name = some node) : node.texts ⊆ Disk.texts disk := by
  induction disk with
  | nil => cases h
  | cons entry rest ih =>
    obtain ⟨other, n⟩ := entry
    rw [List.lookup_cons] at h
    by_cases hname : name == other
    · rw [hname] at h
      obtain rfl := Option.some.inj h
      exact List.subset_append_left _ _
    · rw [Bool.not_eq_true] at hname
      rw [hname] at h
      exact List.subset_append_of_subset_right _ (ih h)

/-- A file that is found lies in one of the directories around. -/
theorem mem_texts_of_follow {around : List Disk} {parts : List String} {text : String}
    (h : follow around parts = .node (.file (some text))) : ∃ d ∈ around, text ∈ Disk.texts d := by
  fun_induction follow around parts with
  | case1 => cases h
  | case2 around part rest _ ih => exact ih h
  | case3 around rest _ ih =>
    obtain ⟨d, hd, htext⟩ := ih h
    exact ⟨d, List.mem_of_mem_tail hd, htext⟩
  | case4 => cases h
  | case5 => cases h
  | case6 around part rest _ _ _ entries hlookup ih =>
    obtain ⟨d, hd, htext⟩ := ih h
    rcases List.mem_cons.1 hd with rfl | hd
    · cases around with
      | nil => cases hlookup
      | cons top outer =>
        exact ⟨top, List.mem_cons_self, texts_of_lookup hlookup htext⟩
    · exact ⟨d, hd, htext⟩
  | case7 around part _ _ _ text' hlookup =>
    cases h
    cases around with
    | nil => cases hlookup
    | cons top outer =>
      exact ⟨top, List.mem_cons_self, texts_of_lookup hlookup (List.mem_singleton_self text)⟩
  | case8 => cases h

theorem mem_texts_of_read {disk : Disk} {path text : String} (h : disk.read path = .text text) :
    text ∈ Disk.texts disk := by
  unfold read at h
  simp only at h
  split at h
  · cases h
  · split at h
    · cases h
    · split at h
      · cases h
      · cases h
      next content hfollow =>
        cases h
        obtain ⟨d, hd, htext⟩ := mem_texts_of_follow hfollow
        split at hd
        · cases hd
        · rw [List.mem_singleton.1 hd] at htext
          exact htext
      · cases h
      · cases h

end Disk

/-! ### Strings of merged tables -/

theorem Table.strings_insert_subset (t : Table) (key : String) (value : Value) :
    Table.strings (t.insert key value) ⊆ value.strings ++ Table.strings t := by
  induction t with
  | nil => exact List.Subset.refl _
  | cons entry rest ih =>
    obtain ⟨k, v⟩ := entry
    simp only [insert]
    split
    · -- the old value under the key is gone
      intro s hs
      rcases List.mem_append.1 hs with hs | hs
      · exact List.mem_append_left _ hs
      · exact List.mem_append_right _ (List.mem_append_right _ hs)
    · split
      · exact List.Subset.refl _
      · intro s hs
        rcases List.mem_append.1 hs with hs | hs
        · exact List.mem_append_right _ (List.mem_append_left _ hs)
        · rcases List.mem_append.1 (ih hs) with hs | hs
          · exact List.mem_append_left _ hs
          · exact List.mem_append_right _ (List.mem_append_right _ hs)

mutual

/-- A merge has its strings from the two tables. -/
theorem Table.mem_strings_deepMerge {lower upper : Table} {s : String}
    (h : s ∈ Table.strings (Table.deepMerge lower upper)) :
    s ∈ Table.strings lower ∨ s ∈ Table.strings upper := by
  cases upper with
  | nil =>
    rw [Table.deepMerge_nil] at h
    exact .inl h
  | cons entry rest =>
    obtain ⟨key, value⟩ := entry
    rw [Table.deepMerge] at h
    rcases Table.mem_strings_deepMerge h with h | h
    · rcases List.mem_append.1 (Table.strings_insert_subset _ _ _ h) with h | h
      · rcases Value.mem_strings_over h with ⟨v, hv, h⟩ | h
        · exact .inl (Table.strings_of_get? hv h)
        · exact .inr (List.mem_append_left _ h)
      · exact .inl h
    · exact .inr (List.mem_append_right _ h)

theorem Value.mem_strings_over {lower : Option Value} {upper : Value} {s : String}
    (h : s ∈ (Value.over lower upper).strings) :
    (∃ v, lower = some v ∧ s ∈ v.strings) ∨ s ∈ upper.strings := by
  cases upper with
  | table u =>
    cases lower with
    | none =>
      rw [Value.over_none] at h
      exact .inr h
    | some v =>
      cases v with
      | table l =>
        rw [Value.over_table] at h
        rcases Table.mem_strings_deepMerge h with h | h
        · exact .inl ⟨.table l, rfl, h⟩
        · exact .inr h
      | _ =>
        rw [Value.over_of_lower] at h
        · exact .inr h
        · exact nofun
  | _ =>
    rw [Value.over_of_upper] at h
    · exact .inr h
    · exact nofun

end

/-! ### Strings of loaded tables -/

theorem Format.of_tableAt {f : Format} {disk : Disk} {path : String} {u : Table}
    (h : f.tableAt disk path = .ok u) :
    u = [] ∨ ∃ text ∈ Disk.texts disk, f.readTable text = .ok u := by
  unfold tableAt at h
  cases hread : disk.read path with
  | missing =>
    rw [hread] at h
    exact .inl (Except.ok.inj h).symm
  | unreadable =>
    rw [hread] at h
    cases h
  | text content =>
    simp only [hread] at h
    right
    refine ⟨content, Disk.mem_texts_of_read hread, ?_⟩
    cases htable : f.readTable content with
    | error fault =>
      rw [htable] at h
      cases h
    | ok table =>
      rw [htable] at h
      exact congrArg Except.ok (Except.ok.inj h)

/-- The strings that files in a format can hold. -/
def Format.texts (f : Format) (disk : Disk) : List String :=
  (Disk.texts disk).flatMap fun text =>
    match f.readTable text with
    | .ok table => Table.strings table
    | .error _ => []

namespace FileParser

def texts (p : FileParser) (disk : Disk) : List String :=
  match p.kind with
  | .format f => f.texts disk
  | .host _ => []

/-- A parser of the host finds the table in a file that it takes. -/
def HostFinds (p : FileParser) (disk : Disk) (table : Table) : Prop :=
  ∃ h path, p.kind = .host h ∧ h.supports path = true ∧ h.parse disk path = .ok table

theorem strings_of_parse {p : FileParser} {disk : Disk} {path : String} {u : Table}
    (hpath : p.supports path = true) (h : (p.parse disk path).result = .ok u) :
    Table.strings u ⊆ p.texts disk ∨ p.HostFinds disk u := by
  obtain ⟨_, -, h⟩ := Outcome.bind_result_eq_ok.1 h
  unfold supports at hpath
  unfold texts
  cases hkind : p.kind with
  | host parser =>
    rw [hkind] at h hpath
    exact .inr ⟨parser, path, hkind, hpath, Outcome.ofExcept_result_eq_ok.1 h⟩
  | format f =>
    rw [hkind] at h
    left
    intro s hs
    rcases Format.of_tableAt (Outcome.ofExcept_result_eq_ok.1 h) with rfl | ⟨text, htext, hread⟩
    · cases hs
    · refine List.mem_flatMap.2 ⟨text, htext, ?_⟩
      rw [hread]
      exact hs

end FileParser

namespace Loader

/-- The strings that files can hold in the formats that a loader knows. -/
def texts (l : Loader) (disk : Disk) : List String := l.parsers.flatMap fun p => p.texts disk

/-- A parser of the host puts the string into a table. -/
def HostPuts (l : Loader) (disk : Disk) (s : String) : Prop :=
  ∃ p ∈ l.parsers, ∃ table, p.HostFinds disk table ∧ s ∈ Table.strings table

theorem strings_of_parseFile {l : Loader} {disk : Disk} {path : String} {u : Table}
    (h : (l.parseFile disk path).result = .ok u) {s : String} (hs : s ∈ Table.strings u) :
    s ∈ l.texts disk ∨ l.HostPuts disk s := by
  unfold parseFile at h
  cases hparser : l.parsers.find? (·.supports path) with
  | none =>
    rw [hparser] at h
    cases h
    cases hs
  | some p =>
    rw [hparser] at h
    have hp := List.mem_of_find?_eq_some hparser
    have hpath := List.find?_some hparser
    rcases p.strings_of_parse hpath h with htexts | hfinds
    · exact .inl (List.mem_flatMap.2 ⟨p, hp, htexts hs⟩)
    · exact .inr ⟨p, hp, u, hfinds, hs⟩

/-- Whatever the path, the strings of what is loaded are in a file, or the host puts them there. -/
theorem strings_of_loadFile {l : Loader} {disk : Disk} {path : String} {u : Table}
    (h : (l.loadFile disk path).result = .ok u) {s : String} (hs : s ∈ Table.strings u) :
    s ∈ l.texts disk ∨ l.HostPuts disk s := by
  obtain ⟨base, hbase, h⟩ := Outcome.bind_result_eq_ok.1 h
  cases henv : l.environment with
  | none =>
    rw [henv] at h
    cases h
    exact strings_of_parseFile hbase hs
  | some environment =>
    rw [henv] at h
    obtain ⟨overlay, hoverlay, h⟩ := Outcome.bind_result_eq_ok.1 h
    cases h
    rcases Table.mem_strings_deepMerge hs with hs | hs
    · exact strings_of_parseFile hbase hs
    · exact strings_of_parseFile hoverlay hs

end Loader

end LayeredConfig
