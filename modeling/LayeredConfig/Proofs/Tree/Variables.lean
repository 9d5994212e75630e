/-
  LayeredConfig/Proofs/Tree/Variables.lean
  ========================================
  **Names of variables and the paths that they spell.**

  The name of a variable spells a path in letters of either case, with two
  underscores between any two segments.  A segment may have underscores too, so the
  path comes back only if it is clear where a segment ends (`Spellable`): none has
  two underscores in a row, and none but the last ends in one.  A variable with such
  a name puts its value at the path and nowhere else, and its name spells no other
  path of this kind (`variable_at_its_path`).
-/
import LayeredConfig.Proofs.Tree.LastEntry
import LayeredConfig.Proofs.Value.Literal
import Mathlib

namespace LayeredConfig

/-! ### Letters of either case -/

namespace Text

theorem lowerAfter_of_ascii (before : List Char) {s : List Char} (h : ∀ c ∈ s, c.toNat < 0x80) :
    lowerAfter before s = s.map Char.toLower := by
  induction s generalizing before with
  | nil => rfl
  | cons c rest ih =>
    obtain ⟨hc, hrest⟩ := List.forall_mem_cons.1 h
    have hsigma : c ≠ capitalSigma := by
      rintro rfl
      exact absurd hc (by decide)
    rw [lowerAfter, if_neg hsigma, ih _ hrest, lowerChar, if_pos hc]
    rfl

theorem toLower_of_ascii {s : List Char} (h : ∀ c ∈ s, c.toNat < 0x80) :
    toLower s = s.map Char.toLower :=
  lowerAfter_of_ascii [] h

theorem ascii_of_toLower {c : Char} (h : c.toLower.toNat < 0x80) : c.toNat < 0x80 := by
  by_cases hc : c.isUpper = true
  · have hle : c.val ≤ 'Z'.val := (of_decide_eq_true hc).2
    exact Nat.lt_of_le_of_lt (UInt32.le_iff_toNat_le.1 hle) (by decide)
  · rwa [Char.toLower_eq_of_not_isUpper hc] at h

/-- No letter becomes an underscore. -/
theorem toLower_eq_underscore (c : Char) : c.toLower = '_' ↔ c = '_' := by
  by_cases hc : c.isUpper = true
  · have hletter : c.toLower.isLower = true := by
      rw [Char.isLower_toLower_eq_isAlpha, Char.isAlpha, hc, Bool.true_or]
    constructor
    · intro h
      rw [h] at hletter
      cases hletter
    · rintro rfl
      cases hc
  · rw [Char.toLower_eq_of_not_isUpper hc]

/-- The second text is the first one with any of its letters in upper case. -/
def Recased (s t : List Char) : Prop := List.Forall₂ (fun c d => d = c ∨ d = c.toUpper) s t

theorem Recased.map_toLower {s t : List Char} (h : Recased s t)
    (hs : ∀ c ∈ s, c.isUpper = false) : t.map Char.toLower = s := by
  induction h with
  | nil => rfl
  | @cons c d s t hcd _ ih =>
    obtain ⟨hc, hs⟩ := List.forall_mem_cons.1 hs
    have hsame : c.toLower = c := Char.toLower_eq_of_not_isUpper (Bool.eq_false_iff.1 hc)
    have hlower : d.toLower = c := by
      rcases hcd with rfl | rfl
      · exact hsame
      · rw [Char.toLower_toUpper_eq_toLower, hsame]
    rw [List.map_cons, hlower, ih hs]

theorem mem_join {sep : List Char} {parts : List (List Char)} {c : Char}
    (h : c ∈ join sep parts) : c ∈ sep ∨ ∃ part ∈ parts, c ∈ part := by
  induction parts with
  | nil => cases h
  | cons part rest ih =>
    cases rest with
    | nil => exact .inr ⟨part, List.mem_cons_self, h⟩
    | cons next rest =>
      rw [join_cons_cons, List.mem_append, List.mem_append] at h
      rcases h with (h | h) | h
      · exact .inr ⟨part, List.mem_cons_self, h⟩
      · exact .inl h
      · rcases ih h with h | ⟨other, hother, h⟩
        · exact .inl h
        · exact .inr ⟨other, List.mem_cons_of_mem _ hother, h⟩

theorem eq_of_join_eq_nil {sep : List Char} (hsep : sep ≠ []) {parts : List (List Char)}
    (hne : parts ≠ []) (h : join sep parts = []) : parts = [[]] := by
  cases parts with
  | nil => exact absurd rfl hne
  | cons part rest =>
    cases rest with
    | nil => exact congrArg (fun part => [part]) h
    | cons next rest =>
      rw [join_cons_cons] at h
      obtain ⟨hfirst, -⟩ := List.append_eq_nil_iff.1 h
      exact absurd (List.append_eq_nil_iff.1 hfirst).2 hsep

end Text

/-! ### Names -/

/-- It is clear from the text that the segments are joined to where each of them ends; and they are
    written in lower case, in ASCII. -/
structure Spellable (segments : List String) : Prop where
  ne_nil : segments ≠ []
  ne_blank : segments ≠ [""]
  ascii : ∀ segment ∈ segments, ∀ c ∈ segment.toList, c.toNat < 0x80
  lower : ∀ segment ∈ segments, ∀ c ∈ segment.toList, c.isUpper = false
  inside : ∀ segment ∈ segments, ¬ ['_', '_'] <:+: segment.toList
  ends : ∀ segment ∈ segments.dropLast, ¬ ['_'] <:+ segment.toList

/-- The name spells the segments behind the start, with any of their letters in upper case. -/
def Spells (start name : String) (segments : List String) : Prop :=
  ∃ letters, Text.Recased (Text.join ['_', '_'] (segments.map String.toList)) letters ∧
    name.toList = start.toList ++ ['_', '_'] ++ letters

/-- The letters of a name are cut into the segments that they spell. -/
theorem Spellable.splitDouble {segments : List String} (h : Spellable segments)
    {letters : List Char}
    (hletters : Text.Recased (Text.join ['_', '_'] (segments.map String.toList)) letters) :
    (Text.splitDouble '_' letters).map (List.map Char.toLower) = segments.map String.toList := by
  have hlower : ∀ c ∈ Text.join ['_', '_'] (segments.map String.toList), c.isUpper = false := by
    intro c hc
    rcases Text.mem_join hc with hc | ⟨part, hpart, hc⟩
    · simp only [List.mem_cons, List.not_mem_nil, or_false, or_self] at hc
      rw [hc]
      rfl
    · obtain ⟨segment, hsegment, rfl⟩ := List.mem_map.1 hpart
      exact h.lower segment hsegment c hc
  rw [← Text.splitDouble_map Text.toLower_eq_underscore, hletters.map_toLower hlower]
  apply Text.splitDouble_join
  · exact fun hnil => h.ne_nil (List.map_eq_nil_iff.1 hnil)
  · exact List.forall_mem_map.2 h.inside
  · rw [← List.map_dropLast]
    exact List.forall_mem_map.2 h.ends

/-- The path of a name is the one that it spells. -/
theorem Spells.variablePath? {start name : String} {segments : List String}
    (h : Spells start name segments) (hsegments : Spellable segments) :
    variablePath? start name = some segments := by
  obtain ⟨letters, hletters, hname⟩ := h
  have hdrop : Text.dropPrefix? (start.toList ++ ['_', '_']) name.toList = some letters :=
    Text.dropPrefix?_eq_some.2 hname
  have hcut := hsegments.splitDouble hletters
  have hne : letters ≠ [] := by
    -- only the one blank segment is spelled without a letter
    rintro rfl
    have hnil : Text.join ['_', '_'] (segments.map String.toList) = [] :=
      List.forall₂_nil_right_iff.1 hletters
    have hmap : segments.map String.toList ≠ [] :=
      fun hnil => hsegments.ne_nil (List.map_eq_nil_iff.1 hnil)
    have hblank := Text.eq_of_join_eq_nil (by decide) hmap hnil
    obtain ⟨segment, rfl, hsegment⟩ := List.map_eq_singleton_iff.1 hblank
    exact hsegments.ne_blank (by rw [String.toList_eq_nil_iff.1 hsegment])
  have hascii : ∀ part ∈ Text.splitDouble '_' letters,
      Text.toLower part = part.map Char.toLower := by
    intro part hpart
    have hmem : part.map Char.toLower ∈ segments.map String.toList :=
      hcut ▸ List.mem_map_of_mem hpart
    obtain ⟨segment, hsegment, heq⟩ := List.mem_map.1 hmem
    apply Text.toLower_of_ascii
    intro c hc
    apply Text.ascii_of_toLower
    exact hsegments.ascii segment hsegment _ (heq ▸ List.mem_map_of_mem hc)
  have hparts : (Text.splitDouble '_' letters).map (fun part => String.ofList (Text.toLower part)) =
      segments := by
    calc (Text.splitDouble '_' letters).map (fun part => String.ofList (Text.toLower part))
        = ((Text.splitDouble '_' letters).map (List.map Char.toLower)).map String.ofList := by
          rw [List.map_map]
          exact List.map_congr_left fun part hpart => congrArg String.ofList (hascii part hpart)
      _ = segments := by
          rw [hcut, List.map_map]
          exact List.map_id'' (fun segment => String.ofList_toList) segments
  rw [LayeredConfig.variablePath?, hdrop]
  simp only [hparts]

/-! ### One value at the end of a path -/

namespace Value

theorem isLeaf_of_ofLiteral? {s : List Char} {v : Value} (h : ofLiteral? s = some v) :
    v.IsLeaf := by
  rcases kind_of_ofLiteral? h with ⟨b, rfl⟩ | ⟨i, rfl⟩ | ⟨x, rfl⟩
  · intro t ht
    cases ht
  · exact isLeaf_integer i
  · intro t ht
    cases ht

theorem isLeaf_ofText (s : String) : (ofText s).IsLeaf := by
  rw [ofText]
  cases h : ofLiteral? s.toList with
  | none => exact isLeaf_string s
  | some v => exact isLeaf_of_ofLiteral? h

end Value

namespace Table

theorem eq_nil_of_at?_empty {path : List String} {v : Value} (h : at? [] path = some v) :
    path = [] := by
  cases path with
  | nil => rfl
  | cons key rest =>
    rw [at?_cons, get?_nil, Option.bind_none] at h
    cases h

/-- A leaf that is put into the empty table is at its place and nowhere else, and tables are on the
    way to it and nowhere else. -/
theorem only_insertAt_empty {way : List String} (hway : way ≠ []) {v : Value} (hv : v.IsLeaf)
    (path : List String) :
    (∀ leaf : Value, leaf.IsLeaf →
      ((insertAt [] way v).at? path = some leaf ↔ path = way ∧ leaf = v)) ∧
    ((insertAt [] way v).HasTable path ↔ path <+: way ∧ path ≠ way) := by
  by_cases hbehind : way <+: path
  · obtain ⟨rest, rfl⟩ := hbehind
    rw [HasTable, at?_insertAt_append [] hway]
    cases rest with
    | nil =>
      rw [List.append_nil, Value.at?]
      have hno : ¬ ∃ u, some v = some (.table u) := by
        rintro ⟨u, hu⟩
        exact hv u (Option.some.inj hu)
      refine ⟨fun leaf _ => ?_, iff_of_false hno fun h => h.2 rfl⟩
      rw [Option.some_inj, eq_comm]
      exact (and_iff_right rfl).symm
    | cons key rest =>
      have hlonger : way ++ key :: rest ≠ way := by simp
      have hbeyond : ¬ way ++ key :: rest <+: way := by
        intro h
        have hle := h.length_le
        simp at hle
      rw [hv.at?_cons]
      have hnone (u : Value) : ¬ (none : Option Value) = some u := (Option.some_ne_none u).symm
      refine ⟨fun leaf _ => iff_of_false (hnone leaf) fun h => hlonger h.1, ?_⟩
      refine iff_of_false ?_ fun h => hbeyond h.1
      rintro ⟨u, hu⟩
      exact hnone _ hu
  · have hne : path ≠ way := fun h => hbehind (h ▸ List.prefix_refl path)
    rw [hasTable_insertAt_iff hbehind v []]
    refine ⟨fun leaf hleaf => ?_, ?_⟩
    · rw [at?_insertAt_eq_leaf_iff hbehind v [] hleaf]
      refine iff_of_false ?_ fun h => hne h.1
      rintro ⟨hat, hpath⟩
      rw [eq_nil_of_at?_empty hat] at hpath
      exact hpath List.nil_prefix
    · rw [and_iff_left hne]
      refine or_iff_right_of_imp ?_
      rintro ⟨u, hu⟩
      rw [eq_nil_of_at?_empty hu]
      exact List.nil_prefix

end Table

/-! ### The value of a variable -/

/-- **A variable puts its value at the path that its name spells.**  There is nothing else in the
    table but the tables on the way, and the name spells no other path. -/
theorem variable_at_its_path {start name : String} {segments : List String}
    (hsegments : Spellable segments) (hname : Spells start name segments) (text : String) :
    (∀ (path : List String) (leaf : Value), leaf.IsLeaf →
      ((Table.ofVariables start [(name, text)]).at? path = some leaf ↔
        path = segments ∧ leaf = (Value.ofLiteral? text.toList).getD (.string text))) ∧
    (∀ path, (Table.ofVariables start [(name, text)]).HasTable path ↔
      path <+: segments ∧ path ≠ segments) ∧
    ∀ other, Spellable other → Spells start name other → other = segments := by
  have hpath := hname.variablePath? hsegments
  have htable : Table.ofVariables start [(name, text)] =
      Table.insertAt [] segments (Value.ofText text) := by
    simp [Table.ofVariables, Table.ofPaths, hpath]
  have honly := Table.only_insertAt_empty hsegments.ne_nil (Value.isLeaf_ofText text)
  rw [htable]
  refine ⟨fun path leaf hleaf => (honly path).1 leaf hleaf, fun path => (honly path).2, ?_⟩
  intro other hother hspells
  exact Option.some.inj ((hspells.variablePath? hother).symm.trans hpath)

namespace PoolSize

def segments : List String := ["db", "", "_pool_size_"]

theorem spellable : Spellable segments where
  ne_nil := by decide
  ne_blank := by decide
  ascii := by simp [segments]
  lower := by simp [segments]
  inside := by decide
  ends := by decide

theorem spells : Spells "APP" "APP__Db_____POOL_size_" segments :=
  ⟨"Db_____POOL_size_".toList, by
    rw [segments]
    simp [Text.Recased, Text.join], by decide⟩

/-- Five underscores in a row: two separators around an empty segment, and the beginning of the
    third one. -/
theorem size_at_its_path :
    Spellable segments ∧ Spells "APP" "APP__Db_____POOL_size_" segments ∧
      (Table.ofVariables "APP" [("APP__Db_____POOL_size_", "10")]).at? segments =
        some (.integer 10) := by
  obtain ⟨hleaf, -, -⟩ := variable_at_its_path spellable spells "10"
  have hvalue : Value.integer 10 = (Value.ofLiteral? "10".toList).getD (.string "10") := by decide
  exact ⟨spellable, spells, (hleaf segments _ (Value.isLeaf_integer 10)).2 ⟨rfl, hvalue⟩⟩

end PoolSize

end LayeredConfig
