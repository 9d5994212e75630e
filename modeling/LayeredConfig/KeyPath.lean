/-
  LayeredConfig/KeyPath.lean
  ==========================
  **Paths of keys, and their dotted text.**

  A path names a place in a tree by the keys on the way to it; the empty path
  is the whole tree.  Its text is the keys with points between them.  Reading a
  text back cuts it at every point, so a key that itself holds a point can only
  be named by a path that was never a text.
-/
import LayeredConfig.Text.Split

namespace LayeredConfig

/-- The keys from the top of a tree to a place in it. -/
structure KeyPath where
  segments : List String
deriving DecidableEq, Repr, Inhabited

namespace KeyPath

def root : KeyPath := ⟨[]⟩

def isRoot (p : KeyPath) : Bool := p.segments.isEmpty

/-- The path that a dotted text spells; the empty text is the root. -/
def parse (text : String) : KeyPath :=
  if text = "" then root else ⟨(Text.split '.' text.toList).map String.ofList⟩

def display (p : KeyPath) : String :=
  String.ofList (Text.join ['.'] (p.segments.map String.toList))

/-- The text of a path that was read from a text is that text. -/
theorem display_parse (text : String) : (parse text).display = text := by
  unfold parse display
  split
  · simp_all [root, Text.join]
  · simp only [List.map_map, Function.comp_def, String.toList_ofList, List.map_id']
    rw [Text.join_split, String.ofList_toList]

/-- No key of a path that was read from a text has a point. -/
theorem point_not_mem_of_parse {text key : String} (h : key ∈ (parse text).segments) :
    '.' ∉ key.toList := by
  unfold parse at h
  split at h
  · cases h
  · obtain ⟨part, hpart, rfl⟩ := List.mem_map.1 h
    rw [String.toList_ofList]
    exact Text.not_mem_of_mem_split '.' text.toList part hpart

/-- The empty text is the root, so a single empty key is never read. -/
theorem parse_ne_empty_key (text : String) : parse text ≠ ⟨[""]⟩ := by
  intro h
  have htext : text = "" := by
    rw [← display_parse text, h]
    rfl
  rw [htext, parse, if_pos rfl] at h
  cases h

/-- Cut at its points, the text of a path has the keys again if none of them has a point. -/
theorem split_display {p : KeyPath} (hne : p.segments ≠ [])
    (hpoint : ∀ key ∈ p.segments, '.' ∉ key.toList) :
    Text.split '.' p.display.toList = p.segments.map String.toList := by
  rw [display, String.toList_ofList]
  apply Text.split_join
  · rwa [ne_eq, List.map_eq_nil_iff]
  · intro part hpart
    obtain ⟨key, hkey, rfl⟩ := List.mem_map.1 hpart
    exact hpoint key hkey

theorem parse_display {p : KeyPath} (hpoint : ∀ key ∈ p.segments, '.' ∉ key.toList)
    (hne : p ≠ ⟨[""]⟩) : parse p.display = p := by
  rcases p with ⟨keys⟩
  cases keys with
  | nil => rfl
  | cons key rest =>
    have hsplit := split_display (List.cons_ne_nil key rest) hpoint
    have htext : display ⟨key :: rest⟩ ≠ "" := by
      -- the empty text has one part, which would be the only key
      intro h
      rw [h] at hsplit
      obtain ⟨hkey, hrest⟩ := List.cons_eq_cons.1 hsplit
      apply hne
      rw [String.toList_eq_nil_iff.1 hkey.symm, List.map_eq_nil_iff.1 hrest.symm]
    rw [parse, if_neg htext, hsplit]
    simp

/-- A path is the one that its text spells, unless a key has a point or the only key is empty. -/
theorem parse_display_iff (p : KeyPath) :
    parse p.display = p ↔ (∀ key ∈ p.segments, '.' ∉ key.toList) ∧ p ≠ ⟨[""]⟩ := by
  constructor
  · intro h
    rw [← h]
    exact ⟨fun _ hkey => point_not_mem_of_parse hkey, parse_ne_empty_key _⟩
  · rintro ⟨hpoint, hne⟩
    exact parse_display hpoint hne

/-- Different texts spell different paths. -/
theorem parse_inj {text₁ text₂ : String} : parse text₁ = parse text₂ ↔ text₁ = text₂ := by
  constructor
  · intro h
    rw [← display_parse text₁, h, display_parse]
  · exact congrArg parse

end KeyPath

end LayeredConfig
